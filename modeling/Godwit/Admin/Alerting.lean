import Godwit.Admin.Spend
import Godwit.Admin.Teams
import Godwit.Lib.Program

set_option autoImplicit false

/-! # Budget alerts (`godwit-core/src/alerting.rs`)

One pass over the alerting configs: the spend and the budget of each are queried and compared, and a webhook is
called, with retries, where the budget is nearly spent. A statement names a table and columns, and it fails where
the migrations define no such thing. -/

namespace Godwit

/-! ## The schema -/

/-- What a statement names. -/
structure Statement where
  table : String
  columns : List String
  deriving DecidableEq, Repr

/-- Tables with their columns. -/
abbrev Schema := List (String × List String)

/-- Does the schema have the table and each of the columns that the statement uses? -/
def Statement.definedBy (schema : Schema) (s : Statement) : Bool :=
  schema.any fun table => table.1 = s.table && s.columns.all table.2.contains

/-- The tables that the service names, as the migrations leave them. -/
def migratedSchema : Schema :=
  [("organizations", ["id", "name", "rate_limit_requests_per_minute", "created_at", "rate_limit_tokens_per_minute"]),
   ("teams", ["id", "organization_id", "name", "created_at", "budget_usd", "max_budget_usd"]),
   ("api_keys", ["id", "user_id", "team_id", "organization_id", "name", "key_prefix", "key_hash", "scopes",
      "budget_limit_usd", "budget_spent_usd", "rate_limit_requests_per_minute", "expires_at", "disabled",
      "created_at", "allowed_models", "rate_limit_tokens_per_minute"]),
   ("request_logs", ["id", "api_key_id", "user_id", "organization_id", "team_id", "model", "provider",
      "provider_model_id", "tokens_in", "tokens_out", "cost_usd", "duration_ms", "streamed", "status",
      "error_message", "created_at", "capability", "tags", "attempt_number", "fallback_triggered",
      "tool_calls_count", "agentic_iteration"]),
   ("alerting_webhooks", ["id", "timestamp", "event_type", "target_url", "payload", "status", "retry_count",
      "last_attempt"]),
   ("alerting_config", ["id", "org_id", "team_id", "api_key_id", "budget_threshold_percent", "webhook_url",
      "enabled", "created_at"])]

/-! ## Operations -/

/-- A row of `alerting_config`: whose spend is watched, from which share of the budget on, and where to report
    it. -/
structure AlertingConfig where
  id : Int64
  orgId : Option Uuid
  teamId : Option Uuid
  apiKeyId : Option Uuid
  budgetThresholdPercent : Int32
  webhookUrl : String
  enabled : Bool
  deriving DecidableEq, Repr

/-- The amounts are the exact values of floats. -/
structure BudgetAlertPayload where
  eventType : String
  orgId : Option Uuid
  teamId : Option Uuid
  apiKeyId : Option Uuid
  currentSpend : ℚ
  budget : ℚ
  thresholdPercent : UInt32
  timestamp : Timestamp
  deriving DecidableEq

/-- Why a check of the budgets ends early. -/
inductive AlertingError where
  | database (message : String)
  | http (message : String)
  | webhookFailed (message : String)
  deriving DecidableEq, Repr

/-- The queries and webhook calls of the alerting service. -/
inductive AlertingOp where
  | selectConfigs
  | selectSpend (orgId teamId apiKeyId : Option Uuid)
  | selectKeyBudget (id : Uuid)
  | selectTeamBudget (id : Uuid)
  | selectOrganizationBudget (id : Uuid)
  | insertWebhook (eventType targetUrl : String) (payload : BudgetAlertPayload) (status : String)
  | updateWebhookStatus (id : Int64) (status : String) (retryCount : Int32)
  | updateWebhookRetry (id : Int64) (retryCount : Int32)
  /-- A call of a webhook. Nothing of the program reads which config it is for. -/
  | post (config : AlertingConfig) (url : String) (payload : BudgetAlertPayload)
  | sleep (seconds : Nat)
  | now

/-- A statement may fail with a message; a call has a status or fails. -/
def AlertingOp.Answer : AlertingOp → Type
  | .selectConfigs => Except String (List AlertingConfig)
  | .selectSpend _ _ _ | .selectKeyBudget _ | .selectTeamBudget _ | .selectOrganizationBudget _ =>
    Except String (Option Decimal)
  | .insertWebhook _ _ _ _ => Except String Int64
  | .updateWebhookStatus _ _ _ | .updateWebhookRetry _ _ => Except String Unit
  | .post _ _ _ => Except String Nat
  | .sleep _ => Unit
  | .now => Timestamp

/-- The operations and their answers. -/
abbrev AlertingStore : Signature := ⟨AlertingOp, AlertingOp.Answer⟩

/-- A program of the alerting service. -/
abbrev AlertingProgram := Program AlertingStore AlertingError

/-- The rows of a query, whose failure is a `Database` error. -/
def queried {α : Type} (answer : Except String α) : AlertingProgram α :=
  Program.ofExcept (answer.mapError .database)

/-! ## The service -/

section Service

-- The nearest float of a number.
variable (f64 : ℚ → ℚ)

/-- `get_alerting_configs`: the enabled rows. -/
def getAlertingConfigs : AlertingProgram (List AlertingConfig) := do
  let configs ← Program.perform (S := AlertingStore) .selectConfigs
  queried configs

/-- A missing amount is zero. -/
def amount (result : Option Decimal) : ℚ := f64 ((result.getD .zero).val)

/-- `get_current_spend`: the sum of the logs of the configured owner, read as a float. -/
def getCurrentSpend (orgId teamId apiKeyId : Option Uuid) : AlertingProgram ℚ := do
  let answer ← Program.perform (S := AlertingStore) (.selectSpend orgId teamId apiKeyId)
  let result ← queried answer
  pure (amount f64 result)

/-- The statement for the narrowest scope. -/
def budgetQuery (orgId teamId apiKeyId : Option Uuid) : AlertingProgram (Option Decimal) :=
  match apiKeyId, teamId, orgId with
  | some keyId, _, _ => Program.perform (S := AlertingStore) (.selectKeyBudget keyId) >>= queried
  | none, some tid, _ => Program.perform (S := AlertingStore) (.selectTeamBudget tid) >>= queried
  | none, none, some oid => Program.perform (S := AlertingStore) (.selectOrganizationBudget oid) >>= queried
  | none, none, none => pure none

/-- `get_budget`: the budget of the configured owner, zero when it has none. -/
def getBudget (orgId teamId apiKeyId : Option Uuid) : AlertingProgram ℚ := do
  let budget ← budgetQuery orgId teamId apiKeyId
  pure (amount f64 budget)

/-- How often a delivery is tried again after the first attempt. -/
def AlertingService.maxRetries : Nat := 5

/-- The seconds to wait before each retry; the last delay is repeated when the list is exhausted. -/
def retryDelays : List Nat := [30, 120, 600, 3600]

/-- A 2xx status. -/
def isDelivered (status : Nat) : Bool := 200 ≤ status && status < 300

/-- The attempts that are left, each after the delay that follows the one before. -/
def attemptDeliveries (config : AlertingConfig) (webhookId : Int64) (url : String) (payload : BudgetAlertPayload) :
    List Nat → AlertingProgram Unit
  | [] => pure ()
  | attempt :: rest => do
    let response ← Program.perform (S := AlertingStore) (.post config url payload)
    if response.toOption.any isDelivered then
      let updated ← Program.perform (S := AlertingStore) (.updateWebhookStatus webhookId "success" (.ofNat attempt))
      queried updated
    else if attempt < AlertingService.maxRetries then
      Program.perform (S := AlertingStore) (.sleep (retryDelays.getD attempt (retryDelays.getLastD 0)))
      let updated ← Program.perform (S := AlertingStore) (.updateWebhookRetry webhookId (.ofNat attempt + 1))
      queried updated
      attemptDeliveries config webhookId url payload rest
    else
      let updated ← Program.perform (S := AlertingStore) (.updateWebhookStatus webhookId "failed" (.ofNat attempt))
      queried updated
      .throw (.webhookFailed "Max retries exceeded")

/-- `send_webhook`: the delivery is recorded as pending before the first attempt. -/
def sendWebhook (config : AlertingConfig) (eventType url : String) (payload : BudgetAlertPayload) :
    AlertingProgram Unit := do
  let inserted ← Program.perform (S := AlertingStore) (.insertWebhook eventType url payload "pending")
  let webhookId ← queried inserted
  attemptDeliveries config webhookId url payload (List.range (AlertingService.maxRetries + 1))

/-- One pass of the loop. -/
def checkConfig (config : AlertingConfig) : AlertingProgram Unit := do
  let currentSpend ← getCurrentSpend f64 config.orgId config.teamId config.apiKeyId
  let budget ← getBudget f64 config.orgId config.teamId config.apiKeyId
  if budget ≤ 0 then pure ()
  else
    let threshold := f64 (budget * f64 (config.budgetThresholdPercent.toInt / 100))
    if threshold ≤ currentSpend then
      let eventType := if budget ≤ currentSpend then "budget_100" else "budget_80"
      let timestamp ← Program.perform (S := AlertingStore) .now
      sendWebhook config eventType config.webhookUrl
        { eventType := eventType
          orgId := config.orgId
          teamId := config.teamId
          apiKeyId := config.apiKeyId
          currentSpend := currentSpend
          budget := budget
          thresholdPercent := config.budgetThresholdPercent.toUInt32
          timestamp := timestamp }
    else pure ()

/-- The loop over the configurations: the first error ends it. -/
def checkConfigs : List AlertingConfig → AlertingProgram Unit
  | [] => pure ()
  | config :: rest => do
    checkConfig f64 config
    checkConfigs rest

/-- `check_budgets`: one round over every enabled configuration. -/
def checkBudgets : AlertingProgram Unit := do
  let configs ← getAlertingConfigs
  checkConfigs f64 configs

end Service

/-! ## The database -/

/-- The rows that the service reads. An organization has no budget. -/
structure AlertingDb where
  configs : Table fun config : AlertingConfig => config.id
  logs : SpendTable
  keys : ApiKeyTable
  teams : TeamTable

namespace AlertingDb

variable (db : AlertingDb)

/-- The configurations that a round looks at. -/
def enabledConfigs : List AlertingConfig := db.configs.rows.filter AlertingConfig.enabled

/-- The spend of a scope: what is logged for each part of it that is given. -/
def spend (orgId teamId apiKeyId : Option Uuid) : ℚ :=
  ((db.logs.rows.filter fun row => (orgId.isNone || some row.organizationId = orgId)
    && (teamId.isNone || row.teamId = teamId) && (apiKeyId.isNone || row.apiKeyId = apiKeyId)).map
      RequestLog.cost).sum

/-- The answer of a statement: it fails if it names what the schema does not define, or if it finds no row. -/
def Answered {α : Type} (schema : Schema) (statement : Statement) (found : α → Prop) (answer : Except String α) :
    Prop :=
  if statement.definedBy schema then
    match answer with
    | .ok a => found a
    | .error _ => ∀ a, ¬ found a
  else ∃ message, answer = .error message

/-- Which answers the database can give; a call may end in any way. -/
def answers (schema : Schema) : Environment AlertingStore
  | .selectConfigs, answer =>
    Answered schema ⟨"alerting_config", ["id", "org_id", "team_id", "api_key_id", "budget_threshold_percent",
      "webhook_url", "enabled"]⟩ (fun configs => configs.Perm db.enabledConfigs) answer
  | .selectSpend orgId teamId apiKeyId, answer =>
    Answered schema ⟨"request_logs", ["cost_usd", "org_id", "team_id", "api_key_id"]⟩
      (fun sum => sum.map Subtype.val = some (db.spend orgId teamId apiKeyId)) answer
  | .selectKeyBudget id, answer =>
    Answered schema ⟨"api_keys", ["budget_limit_usd", "id"]⟩
      (fun budget => (db.keys.find? id).map (·.budgetLimitUsd) = some budget) answer
  | .selectTeamBudget id, answer =>
    Answered schema ⟨"teams", ["budget_usd", "id"]⟩
      (fun budget => (db.teams.find? id).map (·.budgetUsd) = some budget) answer
  | .selectOrganizationBudget _, answer =>
    Answered schema ⟨"organizations", ["budget_usd", "id"]⟩ (fun _ => False) answer
  | .insertWebhook _ _ _ _, answer =>
    Answered schema ⟨"alerting_webhooks", ["event_type", "target_url", "payload", "status", "id"]⟩ (fun _ => True)
      answer
  | .updateWebhookStatus _ _ _, answer =>
    Answered schema ⟨"alerting_webhooks", ["status", "retry_count", "last_attempt", "id"]⟩ (fun _ => True) answer
  | .updateWebhookRetry _ _, answer =>
    Answered schema ⟨"alerting_webhooks", ["retry_count", "last_attempt", "id"]⟩ (fun _ => True) answer
  | .post _ _ _, _ | .sleep _, _ | .now, _ => True

end AlertingDb

end Godwit
