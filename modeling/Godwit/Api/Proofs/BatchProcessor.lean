import Godwit.Api.BatchProcessor
import Godwit.Providers.Proofs.Prices

set_option autoImplicit false

/-! # What a batch returns

However the tasks take turns, the results are those of the lines one by one (`BatchRun.Along`), and a batch with a
permit comes to its end. So each line has its item and succeeds when one of its attempts does. The actual costs are
another matter: the prices they are computed with are zero, so only what is free is priced right. -/

namespace Godwit

/-! ## One line -/

/-- The usage of an attempt that was answered. -/
def AttemptOutcome.usage? : AttemptOutcome → Option UsageReport
  | .answered usage => some usage
  | _ => none

/-- What the first successful attempt reports. -/
def firstUsage (outcomes : Nat → AttemptOutcome) : Option UsageReport :=
  ((List.range (maxRetries + 1)).map outcomes).findSome? AttemptOutcome.usage?

/-- The prices in the code. -/
def freePrices : Json := .obj [("input_price_per_million", .int 0), ("output_price_per_million", .int 0)]

theorem freePrices_hasPrices (P : Pricing) : P.HasPrices freePrices .chat fun _ => 0 := by
  have hfree : P.Price (.int 0) 0 := by simpa using Pricing.Price.int (P := P) 0 (by norm_num)
  intro key hkey
  rcases List.mem_cons.1 hkey with rfl | hkey
  · exact ⟨.int 0, rfl, hfree⟩
  · rw [List.mem_singleton.1 hkey]
    exact ⟨.int 0, rfl, hfree⟩

/-- Everything is free at these prices. -/
theorem Pricing.computeChatCost_free {P : Pricing} (hP : P.Documented) (usage : UsageReport) :
    ∃ cost, P.computeChatCost freePrices usage = some cost ∧ cost.getD .zero = .zero := by
  have hplain : ∀ key ∈ priceKeys .chat, ¬ Json.ExponentField freePrices key 0 := by
    rintro key - ⟨literal, -, hsize⟩
    exact absurd hsize (by decide +kernel)
  have hzero : IsDecimal 0 := ⟨0, by norm_num, by norm_num, by norm_num⟩
  cases hprompt : usage.promptTokens with
  | none => exact ⟨none, Pricing.computeChatCost_uncounted (.inl hprompt), rfl⟩
  | some prompt =>
      cases hcompletion : usage.completionTokens with
      | none => exact ⟨none, Pricing.computeChatCost_uncounted (.inr hcompletion), rfl⟩
      | some completion =>
          have hexact : exactCost (fun _ => 0) usage .chat = some ⟨[0, 0, 0], 0⟩ := by
            simp [exactCost, hprompt, hcompletion]
          exact ⟨_, Pricing.computeCost_plain hP (freePrices_hasPrices P) hplain hexact (by simpa using hzero) hzero,
            Subtype.ext (by simp [Decimal.zero])⟩

section Line

variable {P : Pricing}

/-- The result of a line: of its first successful attempt, which is free, or of none. -/
theorem retryLoop_spec (hP : P.Documented) (request : ParsedBatchLine) (lastError : Option String)
    (outcomes : List AttemptOutcome) :
    ∃ item, retryLoop P request lastError outcomes = some item ∧ item.customId = request.customId
      ∧ item.estimatedCost = request.estimatedCost
      ∧ item.success = (outcomes.findSome? AttemptOutcome.usage?).isSome
      ∧ item.actualCost = (outcomes.findSome? AttemptOutcome.usage?).map fun _ => Decimal.zero := by
  induction outcomes generalizing lastError with
  | nil => exact ⟨_, rfl, rfl, rfl, rfl, rfl⟩
  | cons outcome outcomes ih =>
      cases outcome with
      | unresolved e => exact ih _
      | failed e => exact ih _
      | answered usage =>
          obtain ⟨cost, hcost, hzero⟩ := Pricing.computeChatCost_free hP usage
          refine ⟨⟨request.customId, true, request.estimatedCost, some .zero, (usage.promptTokens.getD 0).toInt64,
            (usage.completionTokens.getD 0).toInt64, none⟩, ?_, rfl, rfl, rfl, rfl⟩
          rw [freePrices] at hcost
          rw [retryLoop, attemptRequest]
          simp only [if_true, buildResult, hcost, Option.bind_eq_bind, Option.bind_some, hzero]

end Line

/-! ## The results together -/

theorem sumDecimals_free (D : DecimalArith) {amounts : List Decimal} (h : ∀ amount ∈ amounts, amount = .zero) :
    sumDecimals D amounts = some .zero := by
  have hadd : D.add .zero .zero = some .zero := by
    have hzero : IsDecimal (Decimal.zero.1 + Decimal.zero.1) := by
      rw [Decimal.zero_val, add_zero]
      exact ⟨0, by norm_num, by norm_num, by norm_num⟩
    rw [D.add_exact _ _ hzero]
    exact congrArg some (Subtype.ext (add_eq_left.2 Decimal.zero_val))
  induction amounts with
  | nil => rfl
  | cons amount amounts ih =>
      obtain ⟨rfl, hrest⟩ := List.forall_mem_cons.1 h
      rw [sumDecimals, List.foldlM_cons, hadd]
      exact ih hrest

/-- Free items are counted and cost nothing together. -/
theorem aggregateResults_free (D : DecimalArith) {items : List BatchItemResult}
    (hfree : ∀ item ∈ items, ∀ cost, item.actualCost = some cost → cost = .zero) :
    aggregateResults D items = (sumDecimals D (items.map BatchItemResult.estimatedCost)).map fun total =>
      ⟨items, total, none, (items.filterMap BatchItemResult.actualInputTokens).sum,
        (items.filterMap BatchItemResult.actualOutputTokens).sum, (items.filter BatchItemResult.success).length,
        items.length - (items.filter BatchItemResult.success).length⟩ := by
  have hsum : sumDecimals D (items.filterMap BatchItemResult.actualCost) = some .zero := by
    refine sumDecimals_free D fun cost hcost => ?_
    obtain ⟨item, hitem, hcost⟩ := List.mem_filterMap.1 hcost
    exact hfree item hitem cost hcost
  rw [aggregateResults]
  cases sumDecimals D (items.map BatchItemResult.estimatedCost) with
  | none => rfl
  | some total =>
      simp only [hsum, Option.bind_eq_bind, Option.bind_some, Option.map_some, Decimal.zero_val, lt_self_iff_false,
        if_false]

/-! ## The tasks -/

section Tasks

variable {P : Pricing} {lines : List ParsedBatchLine} {outcomes : Nat → Nat → AttemptOutcome} {maxConcurrent : Nat}

/-- What is left of the task ends as the line would alone. -/
def BatchTask.Along (P : Pricing) (request : ParsedBatchLine) (outcomes : Nat → AttemptOutcome) : BatchTask → Prop
  | .spawned => True
  | .attempting attempt lastError => attempt ≤ maxRetries
    ∧ retryLoop P request lastError ((List.range' attempt (maxRetries + 1 - attempt)).map outcomes)
      = processSingleRequest P request outcomes
  | .finished result => result = processSingleRequest P request outcomes

theorem BatchTask.along_attempting (request : ParsedBatchLine) (outcomes : Nat → AttemptOutcome) :
    (BatchTask.attempting 0 none).Along P request outcomes :=
  ⟨Nat.zero_le _, by rw [processSingleRequest, List.range_eq_range', Nat.sub_zero]⟩

/-- What an attempt makes of its task: it is over, or there is another attempt. -/
theorem attemptTask_cases (P : Pricing) (request : ParsedBatchLine) (attempt : Nat) (outcome : AttemptOutcome) :
    ((attemptRequest request outcome).1.success = true ∧ attemptTask P request attempt outcome
        = .finished (buildResult P request (attemptRequest request outcome).1 (some (attemptRequest request outcome).2)))
      ∨ ((attemptRequest request outcome).1.success = false ∧ attempt < maxRetries
        ∧ attemptTask P request attempt outcome = .attempting (attempt + 1) (attemptRequest request outcome).1.error)
      ∨ ((attemptRequest request outcome).1.success = false ∧ maxRetries ≤ attempt
        ∧ attemptTask P request attempt outcome
          = .finished (failedResult P request (attemptRequest request outcome).1.error)) := by
  unfold attemptTask
  dsimp only
  split_ifs with hsuccess hmore
  · exact .inl ⟨hsuccess, rfl⟩
  · exact .inr (.inl ⟨Bool.eq_false_of_not_eq_true hsuccess, hmore, rfl⟩)
  · exact .inr (.inr ⟨Bool.eq_false_of_not_eq_true hsuccess, Nat.not_lt.1 hmore, rfl⟩)

theorem attemptTask_along {request : ParsedBatchLine} {outcomes : Nat → AttemptOutcome} {attempt : Nat}
    {lastError : Option String} (h : (BatchTask.attempting attempt lastError).Along P request outcomes) :
    (attemptTask P request attempt (outcomes attempt)).Along P request outcomes := by
  obtain ⟨hattempt, hloop⟩ := h
  have hleft : maxRetries + 1 - attempt = (maxRetries - attempt) + 1 := by omega
  rw [hleft, List.range'_succ, List.map_cons, retryLoop] at hloop
  dsimp only at hloop
  rcases attemptTask_cases P request attempt (outcomes attempt) with ⟨hsuccess, htask⟩ | ⟨hfailed, hmore, htask⟩
    | ⟨hfailed, hlast, htask⟩
  · rw [if_pos hsuccess] at hloop
    rw [htask]
    exact hloop
  · rw [hfailed, if_neg Bool.false_ne_true] at hloop
    rw [htask]
    refine ⟨hmore, ?_⟩
    rwa [show maxRetries + 1 - (attempt + 1) = maxRetries - attempt by omega]
  · rw [hfailed, if_neg Bool.false_ne_true, show maxRetries - attempt = 0 by omega] at hloop
    rw [htask]
    exact hloop

/-- The task holds a permit. -/
def BatchTask.isAttempting : BatchTask → Bool
  | .attempting _ _ => true
  | _ => false

/-- Every task is on its way to the line's own result, the permits are with the tasks that attempt, and what was
    awaited are the first results. -/
structure BatchRun.Along (P : Pricing) (lines : List ParsedBatchLine) (outcomes : Nat → Nat → AttemptOutcome)
    (maxConcurrent : Nat) (s : BatchRun) : Prop where
  tasks : s.tasks.length = lines.length
  along : ∀ (i : Nat) (task : BatchTask) (request : ParsedBatchLine), s.tasks[i]? = some task →
    lines[i]? = some request → task.Along P request (outcomes i)
  permits : s.permits + s.tasks.countP BatchTask.isAttempting = maxConcurrent
  results : ∃ results, s.results = .ok results ∧ results.length ≤ lines.length
    ∧ ∀ i item, results[i]? = some item →
      ∃ request, lines[i]? = some request ∧ processSingleRequest P request (outcomes i) = some item

theorem BatchRun.along_start : (BatchRun.start lines maxConcurrent).Along P lines outcomes maxConcurrent where
  tasks := List.length_map _
  along i task request htask _ := by
    rw [BatchRun.start, List.getElem?_map, Option.map_eq_some_iff] at htask
    obtain ⟨_, -, rfl⟩ := htask
    trivial
  permits := by
    have hnone : (lines.map fun _ => BatchTask.spawned).countP BatchTask.isAttempting = 0 :=
      List.countP_eq_zero.2 (by simp [BatchTask.isAttempting])
    rw [BatchRun.start, hnone, Nat.add_zero]
  results := ⟨[], rfl, Nat.zero_le _, fun i item h => by cases h⟩

theorem set_along {s : BatchRun} (h : s.Along P lines outcomes maxConcurrent) {line : Nat} {task : BatchTask}
    (hnew : ∀ request, lines[line]? = some request → task.Along P request (outcomes line)) :
    ∀ (i : Nat) (task' : BatchTask) (request : ParsedBatchLine), (s.tasks.set line task)[i]? = some task' →
      lines[i]? = some request → task'.Along P request (outcomes i) := by
  intro i task' request htask hline
  rw [List.getElem?_set] at htask
  split_ifs at htask with hi hlen
  · subst hi
    rw [← Option.some_inj.1 htask]
    exact hnew request hline
  · exact h.along i task' request htask hline

/-- What a step can be: a permit is taken, an attempt is made, or a result is awaited. -/
theorem BatchRun.step_cases {s s' : BatchRun} {e : BatchEvent} (h : s.step P lines outcomes e = some s') :
    (∃ line, e = .acquire line ∧ s.tasks[line]? = some .spawned ∧ 0 < s.permits
        ∧ s' = { s with tasks := s.tasks.set line (.attempting 0 none), permits := s.permits - 1 })
      ∨ (∃ line attempt lastError request, e = .attempt line ∧ s.tasks[line]? = some (.attempting attempt lastError)
        ∧ lines[line]? = some request
        ∧ s' = { s with
          tasks := s.tasks.set line (attemptTask P request attempt (outcomes line attempt))
          permits := if (attemptTask P request attempt (outcomes line attempt)).isFinished then s.permits + 1
            else s.permits })
      ∨ ∃ results result, e = .join ∧ s.results = .ok results ∧ s.tasks[results.length]? = some (.finished result)
        ∧ s' = { s with results := result.elim (.error .internal) fun item => .ok (results ++ [item]) } := by
  cases e with
  | acquire line =>
      rw [BatchRun.step] at h
      split at h
      · rename_i htask
        split_ifs at h with hpermit
        exact .inl ⟨line, rfl, htask, hpermit, (Option.some.inj h).symm⟩
      · cases h
  | attempt line =>
      rw [BatchRun.step] at h
      split at h
      · rename_i attempt lastError request htask hline
        exact .inr (.inl ⟨line, attempt, lastError, request, rfl, htask, hline, (Option.some.inj h).symm⟩)
      · cases h
  | join =>
      rw [BatchRun.step] at h
      split at h
      · cases h
      · rename_i results hresults
        split at h
        · rename_i item htask
          exact .inr (.inr ⟨results, some item, rfl, hresults, htask, (Option.some.inj h).symm⟩)
        · rename_i htask
          exact .inr (.inr ⟨results, none, rfl, hresults, htask, (Option.some.inj h).symm⟩)
        · cases h

theorem processSingleRequest_isSome (hP : P.Documented) (request : ParsedBatchLine) (outcomes : Nat → AttemptOutcome) :
    ∃ item, processSingleRequest P request outcomes = some item := by
  obtain ⟨item, hitem, -⟩ := retryLoop_spec hP request none ((List.range (maxRetries + 1)).map outcomes)
  exact ⟨item, hitem⟩

theorem attemptTask_isAttempting (request : ParsedBatchLine) (attempt : Nat) (outcome : AttemptOutcome) :
    (attemptTask P request attempt outcome).isAttempting = !(attemptTask P request attempt outcome).isFinished := by
  rcases attemptTask_cases P request attempt outcome with ⟨-, htask⟩ | ⟨-, -, htask⟩ | ⟨-, -, htask⟩ <;>
    rw [htask] <;> rfl

theorem BatchRun.Along.step (hP : P.Documented) {s s' : BatchRun} (h : s.Along P lines outcomes maxConcurrent)
    {e : BatchEvent} (hstep : s.step P lines outcomes e = some s') : s'.Along P lines outcomes maxConcurrent := by
  have hpermits := h.permits
  rcases BatchRun.step_cases hstep with ⟨line, -, htask, hpermit, rfl⟩
    | ⟨line, attempt, lastError, request, -, htask, hline, rfl⟩ | ⟨results, result, -, hresults, htask, rfl⟩
  · obtain ⟨hlen, hget⟩ := List.getElem?_eq_some_iff.1 htask
    refine ⟨?_, set_along h fun request _ => BatchTask.along_attempting request _, ?_, h.results⟩
    · rw [List.length_set, h.tasks]
    · simp only [List.countP_set hlen, hget, BatchTask.isAttempting, Bool.false_eq_true, if_false, if_true]
      omega
  · obtain ⟨hlen, hget⟩ := List.getElem?_eq_some_iff.1 htask
    refine ⟨?_, set_along h fun request' hline' => ?_, ?_, h.results⟩
    · rw [List.length_set, h.tasks]
    · rw [hline, Option.some_inj] at hline'
      subst hline'
      exact attemptTask_along (h.along line _ _ htask hline)
    · have hcount : 1 ≤ s.tasks.countP BatchTask.isAttempting :=
        List.countP_pos_iff.2 ⟨_, List.mem_of_getElem? htask, rfl⟩
      have hheld : (BatchTask.attempting attempt lastError).isAttempting = true := rfl
      dsimp only
      rw [List.countP_set hlen, hget, attemptTask_isAttempting, if_pos hheld]
      cases (attemptTask P request attempt (outcomes line attempt)).isFinished
      · simp only [Bool.false_eq_true, if_false, Bool.not_false, if_true]
        omega
      · simp only [if_true, Bool.not_true, Bool.false_eq_true, if_false]
        omega
  · refine ⟨h.tasks, h.along, hpermits, ?_⟩
    obtain ⟨results', hresults', hle, hitems⟩ := h.results
    rw [hresults, Except.ok.injEq] at hresults'
    subst hresults'
    obtain ⟨hlen, -⟩ := List.getElem?_eq_some_iff.1 htask
    rw [h.tasks] at hlen
    have hline := List.getElem?_eq_getElem hlen
    have hresult := h.along _ _ _ htask hline
    obtain ⟨item, hitem⟩ := processSingleRequest_isSome hP lines[results.length] (outcomes results.length)
    obtain rfl : result = some item := by rw [← hitem]; exact hresult
    refine ⟨results ++ [item], rfl, ?_, fun i item' hitem' => ?_⟩
    · rw [List.length_append, List.length_singleton]
      omega
    · rw [List.getElem?_append] at hitem'
      split_ifs at hitem' with hi
      · exact hitems i item' hitem'
      · obtain ⟨hi', hsame⟩ := List.getElem?_eq_some_iff.1 hitem'
        rw [List.length_singleton] at hi'
        have hindex : i = results.length := by omega
        subst hindex
        have hsame : item = item' := by simpa using hsame
        exact ⟨_, hline, by rw [hitem, hsame]⟩

/-! ## Whole runs -/

/-- How often the task can still take a turn, at most. -/
def BatchTask.turns : BatchTask → Nat
  | .spawned => maxRetries + 3
  | .attempting attempt _ => maxRetries + 2 - attempt
  | .finished _ => 0

/-- How many handles were awaited; after a panic none is left. -/
def BatchRun.awaited (s : BatchRun) : Nat :=
  match s.results with
  | .ok results => results.length
  | .error _ => s.tasks.length

/-- How many turns the run can still take. -/
def BatchRun.left (s : BatchRun) : Nat := (s.tasks.map BatchTask.turns).sum + (s.tasks.length - s.awaited)

theorem sum_set_lt {amounts : List Nat} {i a b : Nat} (h : amounts[i]? = some a) (hb : b < a) :
    (amounts.set i b).sum < amounts.sum := by
  induction amounts generalizing i with
  | nil => cases h
  | cons first amounts ih =>
      cases i with
      | zero =>
          rw [List.getElem?_cons_zero, Option.some_inj] at h
          rw [List.set_cons_zero, List.sum_cons, List.sum_cons]
          omega
      | succ i =>
          rw [List.getElem?_cons_succ] at h
          rw [List.set_cons_succ, List.sum_cons, List.sum_cons]
          have := ih h
          omega

theorem attemptTask_turns (P : Pricing) (request : ParsedBatchLine) (outcome : AttemptOutcome) {attempt : Nat}
    (hattempt : attempt ≤ maxRetries) :
    (attemptTask P request attempt outcome).turns < maxRetries + 2 - attempt := by
  rcases attemptTask_cases P request attempt outcome with ⟨-, htask⟩ | ⟨-, -, htask⟩ | ⟨-, -, htask⟩ <;>
    rw [htask, BatchTask.turns] <;> omega

theorem BatchRun.Along.step_left {s s' : BatchRun} (h : s.Along P lines outcomes maxConcurrent)
    {e : BatchEvent} (hstep : s.step P lines outcomes e = some s') : s'.left < s.left := by
  rcases BatchRun.step_cases hstep with ⟨line, -, htask, -, rfl⟩
    | ⟨line, attempt, lastError, request, -, htask, hline, rfl⟩ | ⟨results, result, -, hresults, htask, rfl⟩
  · have hturns : (s.tasks.map BatchTask.turns)[line]? = some (maxRetries + 3) := by
      rw [List.getElem?_map, htask]
      rfl
    have hless := sum_set_lt hturns (show (BatchTask.attempting 0 none).turns < maxRetries + 3 by decide)
    rw [← List.map_set] at hless
    simp only [BatchRun.left, BatchRun.awaited, List.length_set]
    omega
  · have hturns : (s.tasks.map BatchTask.turns)[line]? = some (maxRetries + 2 - attempt) := by
      rw [List.getElem?_map, htask]
      rfl
    have hless := sum_set_lt hturns
      (attemptTask_turns P request (outcomes line attempt) (h.along line _ _ htask hline).1)
    rw [← List.map_set] at hless
    simp only [BatchRun.left, BatchRun.awaited, List.length_set]
    omega
  · obtain ⟨hlen, -⟩ := List.getElem?_eq_some_iff.1 htask
    cases result <;> simp only [BatchRun.left, BatchRun.awaited, hresults, Option.elim_none, Option.elim_some,
      List.length_append, List.length_singleton] <;> omega

/-- While a result is missing something can happen. -/
theorem BatchRun.Along.progress {s : BatchRun} (h : s.Along P lines outcomes maxConcurrent)
    (hpermit : 1 ≤ maxConcurrent) (hmissing : s.awaited < lines.length) :
    ∃ e s', s.step P lines outcomes e = some s' := by
  have hattempts : ∀ (i attempt : Nat) (lastError : Option String), s.tasks[i]? =
      some (BatchTask.attempting attempt lastError) → ∃ e s', s.step P lines outcomes e = some s' := by
    intro i attempt lastError htask
    have hlen : i < lines.length := h.tasks ▸ (List.getElem?_eq_some_iff.1 htask).1
    refine ⟨.attempt i, Option.isSome_iff_exists.1 ?_⟩
    rw [BatchRun.step, htask, List.getElem?_eq_getElem hlen]
    rfl
  obtain ⟨results, hresults, -, -⟩ := h.results
  have hlen : results.length < s.tasks.length := by
    rw [BatchRun.awaited, hresults] at hmissing
    rwa [h.tasks]
  have htask := List.getElem?_eq_getElem hlen
  cases hfirst : s.tasks[results.length] with
  | finished result =>
      rw [hfirst] at htask
      cases result with
      | some item => exact ⟨.join, _, by rw [BatchRun.step, hresults]; simp only [htask]; rfl⟩
      | none => exact ⟨.join, _, by rw [BatchRun.step, hresults]; simp only [htask]; rfl⟩
  | attempting attempt lastError => exact hattempts _ _ _ (htask.trans (congrArg some hfirst))
  | spawned =>
      rw [hfirst] at htask
      by_cases hfree : 0 < s.permits
      · exact ⟨.acquire results.length, _, by rw [BatchRun.step, htask]; exact if_pos hfree⟩
      · -- all permits are with tasks that attempt
        have hheld : 0 < s.tasks.countP BatchTask.isAttempting := by
          have := h.permits
          omega
        obtain ⟨task, hmem, hattempting⟩ := List.countP_pos_iff.1 hheld
        obtain ⟨i, hi⟩ := List.mem_iff_getElem?.1 hmem
        cases task with
        | attempting attempt lastError => exact hattempts i attempt lastError hi
        | spawned => cases hattempting
        | finished result => cases hattempting

theorem BatchRun.Along.after (hP : P.Documented) {s s' : BatchRun} (h : s.Along P lines outcomes maxConcurrent)
    {events : List BatchEvent} (hafter : s.after P lines outcomes events = some s') :
    s'.Along P lines outcomes maxConcurrent ∧ events.length + s'.left ≤ s.left := by
  induction events generalizing s with
  | nil =>
      obtain rfl : s = s' := Option.some.inj hafter
      exact ⟨h, by simp⟩
  | cons e events ih =>
      rw [BatchRun.after, List.foldlM_cons] at hafter
      obtain ⟨next, hstep, hafter⟩ := Option.bind_eq_some_iff.1 hafter
      obtain ⟨halong, hleft⟩ := ih (h.step hP hstep) hafter
      have := h.step_left hstep
      exact ⟨halong, by rw [List.length_cons]; omega⟩

/-- A batch with a permit is not stuck before it returns. -/
theorem BatchRun.Along.returned {s : BatchRun} (h : s.Along P lines outcomes maxConcurrent)
    (hpermit : 1 ≤ maxConcurrent ∨ lines = []) :
    (∃ e s', s.step P lines outcomes e = some s') ∨ ∃ out, s.returned P = some out := by
  by_cases hmissing : s.awaited < lines.length
  · rcases hpermit with hpermit | rfl
    · exact .inl (h.progress hpermit hmissing)
    · exact absurd hmissing (Nat.not_lt_zero _)
  · obtain ⟨results, hresults, hle, -⟩ := h.results
    refine .inr ⟨.ok (aggregateResults P.decimal results), ?_⟩
    rw [BatchRun.awaited, hresults] at hmissing
    change ¬ results.length < lines.length at hmissing
    rw [BatchRun.returned, hresults]
    exact if_pos (by rw [h.tasks]; omega)

/-- Without a permit no task begins. -/
theorem BatchRun.start_stuck (e : BatchEvent) : (BatchRun.start lines 0).step P lines outcomes e = none := by
  have hspawned : ∀ {i : Nat} {task : BatchTask}, (BatchRun.start lines 0).tasks[i]? = some task →
      task = .spawned := by
    intro i task htask
    rw [BatchRun.start, List.getElem?_map, Option.map_eq_some_iff] at htask
    obtain ⟨_, -, rfl⟩ := htask
    rfl
  cases hstep : (BatchRun.start lines 0).step P lines outcomes e with
  | none => rfl
  | some s' =>
      rcases BatchRun.step_cases hstep with ⟨line, -, -, hpermit, -⟩
        | ⟨line, attempt, lastError, request, -, htask, -⟩ | ⟨results, result, -, -, htask, -⟩
      · exact absurd hpermit (Nat.lt_irrefl 0)
      · cases hspawned htask
      · cases hspawned htask

/-! ## What is returned -/

/-- What `process_batch` can return, over all orders of the tasks. -/
def ProcessBatchReturns (P : Pricing) (lines : List ParsedBatchLine) (outcomes : Nat → Nat → AttemptOutcome)
    (maxConcurrent : Nat) (out : Except ApiError (Option BatchProcessResult)) : Prop :=
  ∃ events s, (BatchRun.start lines maxConcurrent).after P lines outcomes events = some s ∧ s.returned P = some out

/-- In every order of the tasks `process_batch` returns, with a result that is right. -/
structure ProcessBatchYields (P : Pricing) (lines : List ParsedBatchLine) (outcomes : Nat → Nat → AttemptOutcome)
    (maxConcurrent : Nat) (right : BatchProcessResult → Prop) : Prop where
  ends : ∃ bound, ∀ events s, (BatchRun.start lines maxConcurrent).after P lines outcomes events = some s →
    events.length ≤ bound
  returned : ∀ events s, (BatchRun.start lines maxConcurrent).after P lines outcomes events = some s →
    (∃ e s', s.step P lines outcomes e = some s') ∨ ∃ out, s.returned P = some out
  right : ∀ out, ProcessBatchReturns P lines outcomes maxConcurrent out →
    ∃ result, out = .ok (some result) ∧ right result

/-- An item for each line in order, with success where one of the attempts succeeds, and all of them counted. -/
structure BatchProcessResult.Complete (lines : List ParsedBatchLine) (outcomes : Nat → Nat → AttemptOutcome)
    (result : BatchProcessResult) : Prop where
  ids : result.items.map BatchItemResult.customId = lines.map ParsedBatchLine.customId
  successes : ∀ (i : Nat) (item : BatchItemResult), result.items[i]? = some item →
    (item.success = true ↔ ∃ attempt < maxRetries + 1, ((outcomes i attempt).usage?).isSome = true)
  counts : result.successCount + result.failureCount = lines.length

/-- What the usage costs at the prices of its model; without both counts nothing. -/
def usedCost (prices : String → ℚ) (usage : UsageReport) : ℚ :=
  ((exactCost prices usage .chat).map ExactCost.cost).getD 0

/-- Each successful line on a model with prices costs what it used, and the total is the sum of the costs; a total of
    zero is left out. -/
structure BatchProcessResult.Priced (price : String → Option (String → ℚ)) (lines : List ParsedBatchLine)
    (outcomes : Nat → Nat → AttemptOutcome) (result : BatchProcessResult) : Prop where
  costs : ∀ (i : Nat) (item : BatchItemResult) (request : ParsedBatchLine) (usage : UsageReport) (prices : String → ℚ),
    result.items[i]? = some item → lines[i]? = some request → firstUsage (outcomes i) = some usage →
      price request.body.model = some prices → ∃ cost, item.actualCost = some cost ∧ cost.1 = usedCost prices usage
  total : result.totalActualCost.elim 0 Subtype.val
    = ((result.items.filterMap BatchItemResult.actualCost).map Subtype.val).sum

/-- What the successful lines used is free at the prices of their models. -/
def FreeOfCharge (price : String → Option (String → ℚ)) (lines : List ParsedBatchLine)
    (outcomes : Nat → Nat → AttemptOutcome) : Prop :=
  ∀ (i : Nat) (request : ParsedBatchLine) (usage : UsageReport) (prices : String → ℚ), lines[i]? = some request →
    firstUsage (outcomes i) = some usage → price request.body.model = some prices → usedCost prices usage = 0

theorem firstUsage_isSome_iff (outcomes : Nat → AttemptOutcome) :
    (firstUsage outcomes).isSome = true ↔ ∃ attempt < maxRetries + 1, ((outcomes attempt).usage?).isSome = true := by
  rw [firstUsage, List.findSome?_isSome_iff]
  simp only [List.mem_map, List.mem_range, exists_exists_and_eq_and]

/-- Each line with its item. -/
structure LinesItems (lines : List ParsedBatchLine) (outcomes : Nat → Nat → AttemptOutcome)
    (items : List BatchItemResult) : Prop where
  length : items.length = lines.length
  item : ∀ (i : Nat) (item : BatchItemResult), items[i]? = some item → ∃ request, lines[i]? = some request
    ∧ item.customId = request.customId ∧ item.estimatedCost = request.estimatedCost
    ∧ item.success = (firstUsage (outcomes i)).isSome
    ∧ item.actualCost = (firstUsage (outcomes i)).map fun _ => Decimal.zero

theorem LinesItems.map_eq {items : List BatchItemResult} (h : LinesItems lines outcomes items) {α : Type}
    {f : BatchItemResult → α} {g : ParsedBatchLine → α}
    (hfg : ∀ (item : BatchItemResult) (request : ParsedBatchLine), item.customId = request.customId →
      item.estimatedCost = request.estimatedCost → f item = g request) :
    items.map f = lines.map g := by
  refine List.ext_getElem? fun i => ?_
  rw [List.getElem?_map, List.getElem?_map]
  cases hitem : items[i]? with
  | none =>
      rw [List.getElem?_eq_none_iff, h.length] at hitem
      rw [List.getElem?_eq_none_iff.2 hitem]
      rfl
  | some item =>
      obtain ⟨request, hline, hid, hestimated, -⟩ := h.item i item hitem
      rw [hline, Option.map_some, Option.map_some, hfg item request hid hestimated]

/-- Whatever the order of the tasks, what is returned are the items of the lines one by one. -/
theorem ProcessBatchReturns.items (hP : P.Documented) {out : Except ApiError (Option BatchProcessResult)}
    (h : ProcessBatchReturns P lines outcomes maxConcurrent out) :
    ∃ items, LinesItems lines outcomes items ∧ out = .ok (aggregateResults P.decimal items) := by
  obtain ⟨events, s, hafter, hreturned⟩ := h
  obtain ⟨halong, -⟩ := BatchRun.along_start.after hP hafter
  obtain ⟨results, hresults, -, hitems⟩ := halong.results
  rw [BatchRun.returned, hresults] at hreturned
  dsimp only at hreturned
  split_ifs at hreturned with hlen
  refine ⟨results, ⟨hlen.trans halong.tasks, fun i item hitem => ?_⟩, (Option.some.inj hreturned).symm⟩
  obtain ⟨request, hline, hresult⟩ := hitems i item hitem
  obtain ⟨item', hitem', hspec⟩ := retryLoop_spec hP request none ((List.range (maxRetries + 1)).map (outcomes i))
  obtain rfl : item' = item := Option.some.inj (hitem'.symm.trans hresult)
  exact ⟨request, hline, hspec⟩

theorem LinesItems.free {items : List BatchItemResult} (h : LinesItems lines outcomes items) :
    ∀ item ∈ items, ∀ cost, item.actualCost = some cost → cost = .zero := by
  intro item hitem cost hcost
  obtain ⟨i, hi⟩ := List.mem_iff_getElem?.1 hitem
  obtain ⟨request, -, -, -, -, hactual⟩ := h.item i item hi
  rw [hactual, Option.map_eq_some_iff] at hcost
  obtain ⟨_, -, rfl⟩ := hcost
  rfl

/-- The items of the lines add up to a result when the estimates do; it is complete, and priced right where what was
    used is free. -/
theorem LinesItems.aggregate {items : List BatchItemResult} (h : LinesItems lines outcomes items) (D : DecimalArith)
    (price : String → Option (String → ℚ)) :
    (aggregateResults D items).isSome = (sumDecimals D (lines.map ParsedBatchLine.estimatedCost)).isSome
      ∧ ∀ result, aggregateResults D items = some result → result.Complete lines outcomes
        ∧ (result.Priced price lines outcomes ↔ FreeOfCharge price lines outcomes) := by
  rw [aggregateResults_free D h.free, h.map_eq fun _ _ _ hestimated => hestimated, Option.isSome_map]
  refine ⟨rfl, fun result hresult => ?_⟩
  obtain ⟨total, -, rfl⟩ := Option.map_eq_some_iff.1 hresult
  refine ⟨⟨h.map_eq fun _ _ hid _ => hid, fun i item hitem => ?_, ?_⟩, fun hpriced => ?_, fun hfree => ⟨?_, ?_⟩⟩
  · obtain ⟨request, -, -, -, hsuccess, -⟩ := h.item i item hitem
    rw [hsuccess, firstUsage_isSome_iff]
  · have := List.length_filter_le BatchItemResult.success items
    dsimp only
    rw [h.length] at this ⊢
    omega
  · intro i request usage prices hline husage hprices
    have hlen : i < items.length := h.length ▸ (List.getElem?_eq_some_iff.1 hline).1
    have hitem := List.getElem?_eq_getElem hlen
    obtain ⟨cost, hcost, hexact⟩ := hpriced.costs i _ request usage prices hitem hline husage hprices
    rw [← hexact, h.free _ (List.getElem_mem hlen) cost hcost, Decimal.zero_val]
  · intro i item request usage prices hitem hline husage hprices
    obtain ⟨-, -, -, -, -, hactual⟩ := h.item i item hitem
    rw [husage] at hactual
    exact ⟨.zero, hactual, by rw [hfree i request usage prices hline husage hprices, Decimal.zero_val]⟩
  · refine (List.sum_eq_zero fun cost hcost => ?_).symm
    obtain ⟨actual, hactual, rfl⟩ := List.mem_map.1 hcost
    obtain ⟨item, hitem, hactual⟩ := List.mem_filterMap.1 hactual
    rw [h.free item hitem actual hactual, Decimal.zero_val]

/-- The batch runs to its end when there is a permit for it. -/
theorem processBatch_ends_iff (hP : P.Documented) :
    ((∃ bound, ∀ events s, (BatchRun.start lines maxConcurrent).after P lines outcomes events = some s →
        events.length ≤ bound)
      ∧ ∀ events s, (BatchRun.start lines maxConcurrent).after P lines outcomes events = some s →
        (∃ e s', s.step P lines outcomes e = some s') ∨ ∃ out, s.returned P = some out)
      ↔ 1 ≤ maxConcurrent ∨ lines = [] := by
  constructor
  · rintro ⟨-, hreturned⟩
    rcases Nat.eq_zero_or_pos maxConcurrent with rfl | hpermit
    · rcases hreturned [] _ rfl with ⟨e, s', hstep⟩ | ⟨out, hout⟩
      · rw [BatchRun.start_stuck] at hstep
        cases hstep
      · rw [BatchRun.start, BatchRun.returned] at hout
        dsimp only at hout
        split_ifs at hout with hlen
        rw [List.length_map] at hlen
        exact .inr (List.length_eq_zero_iff.1 hlen.symm)
    · exact .inl hpermit
  · intro hpermit
    refine ⟨⟨(BatchRun.start lines maxConcurrent).left, fun events s hafter => ?_⟩, fun events s hafter => ?_⟩
    · have := (BatchRun.along_start.after hP hafter).2
      omega
    · exact (BatchRun.along_start.after hP hafter).1.returned hpermit

/-- Runs that are bounded and not stuck before they return do return. -/
theorem processBatch_returns {bound : Nat}
    (hends : ∀ events s, (BatchRun.start lines maxConcurrent).after P lines outcomes events = some s →
      events.length ≤ bound)
    (hreturned : ∀ events s, (BatchRun.start lines maxConcurrent).after P lines outcomes events = some s →
      (∃ e s', s.step P lines outcomes e = some s') ∨ ∃ out, s.returned P = some out) :
    ∃ out, ProcessBatchReturns P lines outcomes maxConcurrent out := by
  have hruns : ∀ (n : Nat) (events : List BatchEvent) (s : BatchRun), bound < events.length + n →
      (BatchRun.start lines maxConcurrent).after P lines outcomes events = some s →
        ∃ out, ProcessBatchReturns P lines outcomes maxConcurrent out := by
    intro n
    induction n with
    | zero => exact fun events s hlong hafter => absurd (hends events s hafter) (Nat.not_le.2 hlong)
    | succ n ih =>
        intro events s hlong hafter
        rcases hreturned events s hafter with ⟨e, s', hstep⟩ | ⟨out, hout⟩
        · refine ih (events ++ [e]) s' ?_ ?_
          · rw [List.length_append, List.length_singleton]
            omega
          · rw [BatchRun.after] at hafter
            rw [BatchRun.after, List.foldlM_append, hafter, Option.bind_eq_bind, Option.bind_some, List.foldlM_cons,
              hstep]
            rfl
        · exact ⟨out, events, s, hafter, hout⟩
  exact hruns (bound + 1) [] _ (by rw [List.length_nil]; omega) rfl

/-- What is returned is right in every order of the tasks when it is right in one. -/
theorem processBatchYields_iff (hP : P.Documented) {right : BatchProcessResult → Prop} {condition : Prop}
    (hright : ∀ items, LinesItems lines outcomes items →
      ((∃ result, aggregateResults P.decimal items = some result ∧ right result) ↔ condition)) :
    ProcessBatchYields P lines outcomes maxConcurrent right ↔ (1 ≤ maxConcurrent ∨ lines = []) ∧ condition := by
  constructor
  · rintro ⟨hends, hreturned, hyields⟩
    refine ⟨(processBatch_ends_iff hP).1 ⟨hends, hreturned⟩, ?_⟩
    obtain ⟨bound, hbound⟩ := hends
    obtain ⟨out, hout⟩ := processBatch_returns hbound hreturned
    obtain ⟨items, hitems, hsame⟩ := hout.items hP
    obtain ⟨result, hresult, hgood⟩ := hyields out hout
    rw [hsame, Except.ok.injEq] at hresult
    exact (hright items hitems).1 ⟨result, hresult, hgood⟩
  · rintro ⟨hpermit, hcondition⟩
    obtain ⟨hends, hreturned⟩ := (processBatch_ends_iff hP).2 hpermit
    refine ⟨hends, hreturned, fun out hout => ?_⟩
    obtain ⟨items, hitems, rfl⟩ := hout.items hP
    obtain ⟨result, hresult, hgood⟩ := (hright items hitems).2 hcondition
    exact ⟨result, by rw [hresult], hgood⟩

theorem processBatch_complete_iff (hP : P.Documented) :
    ProcessBatchYields P lines outcomes maxConcurrent (·.Complete lines outcomes)
      ↔ (1 ≤ maxConcurrent ∨ lines = [])
        ∧ (sumDecimals P.decimal (lines.map ParsedBatchLine.estimatedCost)).isSome = true := by
  refine processBatchYields_iff hP fun items hitems => ?_
  obtain ⟨hsum, hresult⟩ := hitems.aggregate P.decimal fun _ => none
  rw [← hsum, Option.isSome_iff_exists]
  constructor
  · rintro ⟨result, hagg, -⟩
    exact ⟨result, hagg⟩
  · rintro ⟨result, hagg⟩
    exact ⟨result, hagg, (hresult result hagg).1⟩

/-- The estimates of a batch were added when it was parsed. -/
theorem estimateLines_sum {pricingCatalog : String → Option Json} {requests : List BatchRequest}
    {result final : BatchParseResult}
    (hresult : sumDecimals P.decimal (result.lines.map ParsedBatchLine.estimatedCost) = some result.totalEstimatedCost)
    (h : estimateLines P pricingCatalog requests result = some (.ok final)) :
    sumDecimals P.decimal (final.lines.map ParsedBatchLine.estimatedCost) = some final.totalEstimatedCost := by
  induction requests generalizing result with
  | nil =>
      obtain rfl : result = final := Except.ok.inj (Option.some.inj h)
      exact hresult
  | cons request requests ih =>
      rw [estimateLines] at h
      split at h
      · cases h
      · obtain ⟨priced, -, h⟩ := Option.bind_eq_some_iff.1 h
        cases priced with
        | none => cases h
        | some cost =>
            obtain ⟨totalCost, htotal, h⟩ := Option.bind_eq_some_iff.1 h
            refine ih ?_ h
            rw [sumDecimals] at hresult
            rw [sumDecimals, List.map_append, List.foldlM_append, hresult, Option.bind_eq_bind, Option.bind_some,
              List.map_singleton, List.foldlM_cons, htotal]
            rfl

/-- A batch that was estimated is returned complete. -/
theorem estimateCost_complete (hP : P.Documented) {pricingCatalog : String → Option Json}
    {requests : List BatchRequest} {parsed : BatchParseResult}
    (h : estimateCost P pricingCatalog requests = some (.ok parsed)) (hpermit : 1 ≤ maxConcurrent) :
    ProcessBatchYields P parsed.lines outcomes maxConcurrent (·.Complete parsed.lines outcomes) := by
  have hsum := estimateLines_sum (P := P) rfl h
  exact (processBatch_complete_iff hP).2 ⟨.inl hpermit, by rw [hsum]; rfl⟩

theorem processBatch_priced_iff (hP : P.Documented) (price : String → Option (String → ℚ)) :
    ProcessBatchYields P lines outcomes maxConcurrent
        (fun result => result.Complete lines outcomes ∧ result.Priced price lines outcomes)
      ↔ (1 ≤ maxConcurrent ∨ lines = [])
        ∧ (sumDecimals P.decimal (lines.map ParsedBatchLine.estimatedCost)).isSome = true
        ∧ FreeOfCharge price lines outcomes := by
  refine processBatchYields_iff hP fun items hitems => ?_
  obtain ⟨hsum, hresult⟩ := hitems.aggregate P.decimal price
  rw [← hsum, Option.isSome_iff_exists]
  constructor
  · rintro ⟨result, hagg, -, hpriced⟩
    exact ⟨⟨result, hagg⟩, (hresult result hagg).2.1 hpriced⟩
  · rintro ⟨⟨result, hagg⟩, hfree⟩
    exact ⟨result, hagg, (hresult result hagg).1, (hresult result hagg).2.2 hfree⟩

/-- In every order of the tasks the batch is complete, when there is a permit and the estimates have a sum; it is also
    priced right when, besides, nothing that was used has a price. -/
theorem processBatch_right_iff (hP : P.Documented) (price : String → Option (String → ℚ)) :
    (ProcessBatchYields P lines outcomes maxConcurrent (·.Complete lines outcomes)
        ↔ (1 ≤ maxConcurrent ∨ lines = [])
          ∧ (sumDecimals P.decimal (lines.map ParsedBatchLine.estimatedCost)).isSome = true)
      ∧ (ProcessBatchYields P lines outcomes maxConcurrent
          (fun result => result.Complete lines outcomes ∧ result.Priced price lines outcomes)
        ↔ (1 ≤ maxConcurrent ∨ lines = [])
          ∧ (sumDecimals P.decimal (lines.map ParsedBatchLine.estimatedCost)).isSome = true
          ∧ FreeOfCharge price lines outcomes) :=
  ⟨processBatch_complete_iff hP, processBatch_priced_iff hP price⟩

end Tasks

/-! ## A line that is priced -/

/-- A line of a batch. -/
def pricedLine : ParsedBatchLine :=
  ⟨"req-1", "POST", "/v1/chat/completions", ⟨"gpt-4o", [], none⟩, .ofInt32 5⟩

theorem sumDecimals_singleton (P : Pricing) (amount : Decimal) : (sumDecimals P.decimal [amount]).isSome = true := by
  have hsum : IsDecimal (Decimal.zero.1 + amount.1) := by
    rw [Decimal.zero_val, zero_add]
    exact amount.2
  rw [sumDecimals, List.foldlM_cons, P.decimal.add_exact _ _ hsum]
  rfl

/-- The second attempt answers, without a count of its tokens. -/
theorem processBatch_right_uncounted :
    ProcessBatchYields samplePricing [pricedLine]
      (fun _ attempt => if attempt = 0 then .failed "timeout" else .answered .default) 10 fun result =>
        result.Complete [pricedLine] (fun _ attempt => if attempt = 0 then .failed "timeout" else .answered .default)
          ∧ result.Priced (fun _ => some chatPrice) [pricedLine]
            fun _ attempt => if attempt = 0 then .failed "timeout" else .answered .default := by
  refine (processBatch_right_iff checked_documented _).2.2 ⟨.inl (by decide), sumDecimals_singleton _ _, ?_⟩
  intro i request usage prices _ husage _
  obtain rfl : UsageReport.default = usage := Option.some.inj husage
  rfl

/-- A million tokens and half a million at the prices of the model cost 7.50, and the line is returned without a
    cost. -/
theorem pricedLine_free :
    samplePricing.HasPrices chatPrices .chat chatPrice ∧ usedCost chatPrice chatUsage = 15 / 2
      ∧ ¬ ProcessBatchYields samplePricing [pricedLine] (fun _ _ => .answered chatUsage) 10 fun result =>
        result.Complete [pricedLine] (fun _ _ => .answered chatUsage)
          ∧ result.Priced (fun _ => some chatPrice) [pricedLine] fun _ _ => .answered chatUsage := by
  have hcost : usedCost chatPrice chatUsage = 15 / 2 := by decide +kernel
  refine ⟨chatPrices_hasPrices, hcost, fun hyields => ?_⟩
  have hfree := ((processBatch_priced_iff checked_documented _).1 hyields).2.2
  rw [hfree 0 pricedLine chatUsage chatPrice rfl rfl rfl] at hcost
  norm_num at hcost

end Godwit
