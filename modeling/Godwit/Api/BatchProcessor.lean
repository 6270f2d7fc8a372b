import Godwit.Api.Batch
import Godwit.Api.Gateway

set_option autoImplicit false

/-! # Running a batch (`godwit-api/src/batch_processor.rs`)

Each line is a task of its own. A task waits for a permit, asks up to three times, and gives the permit back with its
result; the results are awaited in the order of the lines. What an attempt meets, the router and the provider, is its
outcome. The delays between the attempts of a task only make others come first. -/

namespace Godwit

/-- How often a line is tried again. -/
def maxRetries : Nat := 2

/-- What became of a line. -/
structure BatchItemResult where
  customId : String
  success : Bool
  estimatedCost : Decimal
  actualCost : Option Decimal
  actualInputTokens : Option Int64
  actualOutputTokens : Option Int64
  error : Option String

/-- What became of the batch: the lines and their sums. -/
structure BatchProcessResult where
  items : List BatchItemResult
  totalEstimatedCost : Decimal
  totalActualCost : Option Decimal
  totalInputTokens : Int64
  totalOutputTokens : Int64
  successCount : Nat
  failureCount : Nat

/-! ## One line -/

/-- How an attempt ends: the model is not resolved, the provider fails, each with its error as a text, or it answers. -/
inductive AttemptOutcome where
  | unresolved (error : String)
  | failed (error : String)
  | answered (usage : UsageReport)

/-- `attempt_request`. -/
def attemptRequest (request : ParsedBatchLine) : AttemptOutcome → BatchItemResult × UsageReport
  | .unresolved e =>
    (⟨request.customId, false, request.estimatedCost, none, none, none, some ("Model resolution failed: " ++ e)⟩,
      .default)
  | .failed e =>
    (⟨request.customId, false, request.estimatedCost, none, none, none, some ("Request failed: " ++ e)⟩, .default)
  | .answered usage => (⟨request.customId, true, request.estimatedCost, none, none, none, none⟩, usage)

section Line

variable (P : Pricing)

/-- `build_result`: the prices are written in the code. `none` is a panic. -/
def buildResult (request : ParsedBatchLine) (baseResult : BatchItemResult) (actualUsage : Option UsageReport) :
    Option BatchItemResult :=
  match actualUsage with
  | some usage => do
    let inputTokens := (usage.promptTokens.getD 0).toInt64
    let outputTokens := (usage.completionTokens.getD 0).toInt64
    let pricing := Json.obj [("input_price_per_million", .int 0), ("output_price_per_million", .int 0)]
    let cost ← P.computeChatCost pricing usage
    some ⟨baseResult.customId, baseResult.success, request.estimatedCost, some (cost.getD .zero), some inputTokens,
      some outputTokens, baseResult.error⟩
  | none =>
    some ⟨baseResult.customId, baseResult.success, request.estimatedCost, none, none, none, baseResult.error⟩

/-- What is returned after the last attempt. -/
def failedResult (request : ParsedBatchLine) (lastError : Option String) : Option BatchItemResult :=
  (buildResult P request ⟨request.customId, false, request.estimatedCost, none, none, none, lastError⟩ none).map
    fun failed => { failed with success := false }

/-- The loop of `process_single_request`, over the outcomes of the attempts that are left. -/
def retryLoop (request : ParsedBatchLine) (lastError : Option String) : List AttemptOutcome → Option BatchItemResult
  | [] => failedResult P request lastError
  | outcome :: rest =>
    let (result, usage) := attemptRequest request outcome
    if result.success then buildResult P request result (some usage) else retryLoop request result.error rest

/-- `process_single_request` for the outcomes of its attempts; a panic is no result. -/
def processSingleRequest (request : ParsedBatchLine) (outcomes : Nat → AttemptOutcome) : Option BatchItemResult :=
  retryLoop P request none ((List.range (maxRetries + 1)).map outcomes)

end Line

/-! ## The results together -/

/-- `Sum` of decimals. -/
def sumDecimals (D : DecimalArith) (amounts : List Decimal) : Option Decimal := amounts.foldlM D.add .zero

/-- `aggregate_results`: an actual cost is reported only when it is positive. -/
def aggregateResults (D : DecimalArith) (itemResults : List BatchItemResult) : Option BatchProcessResult := do
  let totalEstimatedCost ← sumDecimals D (itemResults.map BatchItemResult.estimatedCost)
  let successCount := (itemResults.filter BatchItemResult.success).length
  let totalActualCost ← sumDecimals D (itemResults.filterMap BatchItemResult.actualCost)
  some ⟨itemResults, totalEstimatedCost, if 0 < totalActualCost.1 then some totalActualCost else none,
    (itemResults.filterMap BatchItemResult.actualInputTokens).sum,
    (itemResults.filterMap BatchItemResult.actualOutputTokens).sum, successCount, itemResults.length - successCount⟩

/-! ## All lines at once -/

/-- A task of a line: it waits for its permit, tries, and ends. -/
inductive BatchTask where
  | spawned
  | attempting (attempt : Nat) (lastError : Option String)
  /-- The task is over; without a result it panicked. -/
  | finished (result : Option BatchItemResult)

/-- The tasks of the lines, the permits of the semaphore, and the results that were awaited. -/
structure BatchRun where
  tasks : List BatchTask
  permits : Nat
  results : Except ApiError (List BatchItemResult)

/-- What the runtime may do next. -/
inductive BatchEvent where
  | acquire (line : Nat)
  | attempt (line : Nat)
  /-- The next handle is awaited. -/
  | join

section Run

variable (P : Pricing) (lines : List ParsedBatchLine) (outcomes : Nat → Nat → AttemptOutcome)

/-- A task for every line, and as many permits as lines may run at once. -/
def BatchRun.start (maxConcurrent : Nat) : BatchRun := ⟨lines.map fun _ => .spawned, maxConcurrent, .ok []⟩

/-- One attempt of a task. -/
def attemptTask (request : ParsedBatchLine) (attempt : Nat) (outcome : AttemptOutcome) : BatchTask :=
  let (result, usage) := attemptRequest request outcome
  if result.success then .finished (buildResult P request result (some usage))
  else if attempt < maxRetries then .attempting (attempt + 1) result.error
  else .finished (failedResult P request result.error)

/-- The task is over. -/
def BatchTask.isFinished : BatchTask → Bool
  | .finished _ => true
  | _ => false

/-- What can happen next: a waiting task gets a permit, one with a permit makes its attempt, or a result is there. -/
def BatchRun.step (s : BatchRun) : BatchEvent → Option BatchRun
  | .acquire line =>
    match s.tasks[line]? with
    | some .spawned =>
      if 0 < s.permits then
        some { s with tasks := s.tasks.set line (.attempting 0 none), permits := s.permits - 1 }
      else none
    | _ => none
  | .attempt line =>
    match s.tasks[line]?, lines[line]? with
    | some (.attempting attempt _), some request =>
      let task := attemptTask P request attempt (outcomes line attempt)
      some { s with
        tasks := s.tasks.set line task
        permits := if task.isFinished then s.permits + 1 else s.permits }
    | _, _ => none
  | .join =>
    match s.results with
    | .error _ => none
    | .ok results =>
      match s.tasks[results.length]? with
      | some (.finished (some result)) => some { s with results := .ok (results ++ [result]) }
      | some (.finished none) => some { s with results := .error .internal }
      | _ => none

/-- The state after some events, if they can happen one after another. -/
def BatchRun.after (s : BatchRun) (events : List BatchEvent) : Option BatchRun :=
  events.foldlM (fun s e => s.step P lines outcomes e) s

/-- What `process_batch` returns, once it does. -/
def BatchRun.returned (s : BatchRun) : Option (Except ApiError (Option BatchProcessResult)) :=
  match s.results with
  | .error e => some (.error e)
  | .ok results => if results.length = s.tasks.length then some (.ok (aggregateResults P.decimal results)) else none

end Run

end Godwit
