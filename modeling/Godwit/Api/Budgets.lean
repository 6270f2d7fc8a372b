import Godwit.Api.Chat
import Mathlib.Data.Rat.Floor

set_option autoImplicit false

/-! # Budgets and the log of requests (`rate_limit.rs`, `spawn_request_log` of `proxy.rs`)

A budget check adds up the rows of `request_logs` that there are. The row of a request is inserted by a
task that the request spawns at its end and that nobody waits for. -/

namespace Godwit

/-! ## The log -/

/-- The columns of `request_logs` that the budget checks read. -/
structure LoggedRequest where
  userId : Option Uuid
  organizationId : Uuid
  teamId : Option Uuid
  costUsd : Option ℚ
  deriving DecidableEq, Repr

/-- What a column of type `NUMERIC(precision, scale)` stores: halves are rounded away from zero, and a
    value with too many digits is refused. -/
def numericColumn (precision scale : Nat) (q : ℚ) : Option ℚ :=
  let scaled := if 0 ≤ q then ⌊q * 10 ^ scale + 1 / 2⌋ else -⌊-q * 10 ^ scale + 1 / 2⌋
  if scaled.natAbs < 10 ^ precision then some (scaled / 10 ^ scale) else none

/-- The row that the spawned `INSERT` adds; `none` when the database refuses the cost. -/
def RequestLogEntry.row (log : RequestLogEntry) : Option LoggedRequest :=
  match log.costUsd with
  | none => some ⟨some log.userId, log.organizationId, log.teamId, none⟩
  | some cost => (numericColumn 12 6 cost.1).map fun cost =>
      ⟨some log.userId, log.organizationId, log.teamId, some cost⟩

/-! ## The checks -/

/-- The `max_budget_usd` of the rows of `end_users`, by user and organization, and of `teams`. -/
structure BudgetTables where
  endUsers : Uuid → Uuid → Option (Option Decimal)
  teams : Uuid → Option (Option Decimal)

/-- `COALESCE(SUM(cost_usd), 0)` over the rows that satisfy a condition. -/
def spentBy (logs : List LoggedRequest) (p : LoggedRequest → Bool) : ℚ :=
  ((logs.filter p).filterMap LoggedRequest.costUsd).sum

/-- The end of both checks: without a row or without a maximum nothing is enforced. -/
def checkMaxBudget (maxBudget : Option (Option Decimal)) (spent : ℚ) : Except ApiError Unit :=
  match maxBudget with
  | none => .ok ()
  | some none => .ok ()
  | some (some maxBudget) => if maxBudget.1 ≤ spent then .error .budgetExceeded else .ok ()

namespace BudgetTables

variable (tables : BudgetTables) (logs : List LoggedRequest)

/-- `check_end_user_budget`: the limit of the row against the logged spend. -/
def checkEndUserBudget (userId orgId : Uuid) : Except ApiError Unit :=
  checkMaxBudget (tables.endUsers userId orgId)
    (spentBy logs fun row => row.userId = some userId && row.organizationId = orgId)

/-- `check_team_budget`. -/
def checkTeamBudget (teamId : Uuid) : Except ApiError Unit :=
  checkMaxBudget (tables.teams teamId) (spentBy logs fun row => row.teamId = some teamId)

end BudgetTables

/-! ## Requests and their tasks -/

/-- A step of the `i`-th request, or of the task that it spawned. -/
inductive LogOp where
  | perform (i : Nat) (o : GatewayOp)
  | insertLog (i : Nat) (log : RequestLogEntry)

/-- The task looks at the outcome of its `INSERT` no further. -/
def LogOp.Answer : LogOp → Type
  | .perform _ o => o.Answer
  | .insertLog _ _ => Except String Unit

/-- The operations of the handlers and the insertions of the spawned tasks. -/
abbrev RequestLogs : Signature := ⟨LogOp, LogOp.Answer⟩

/-- The steps, in the order in which they were taken. -/
abbrev LogHistory := List (Step RequestLogs)

/-- The log, and the tasks that have not run. -/
structure LogWorld where
  logs : List LoggedRequest
  spawned : List (Nat × RequestLogEntry)

/-- The database answers a check with its verdict, or fails. -/
def Verdict (verdict answer : Except ApiError Unit) : Prop :=
  answer = verdict ∨ ∃ msg, answer = .error (.core (.database msg))

/-- A request log is spawned first and inserted by a step of its own, in any order. -/
abbrev logMonitor (tables : BudgetTables) : Monitor RequestLogs where
  State := LogWorld
  next w step := match step with
    | ⟨.perform i (.spawnRequestLog log), _⟩ => { w with spawned := w.spawned ++ [(i, log)] }
    | ⟨.perform _ _, _⟩ => w
    | ⟨.insertLog i log, .ok ()⟩ => ⟨w.logs ++ log.row.toList, w.spawned.erase (i, log)⟩
    | ⟨.insertLog i log, .error _⟩ => { w with spawned := w.spawned.erase (i, log) }
  accepts w step := match step with
    | ⟨.perform _ (.checkEndUserBudget userId orgId), answer⟩ =>
      Verdict (tables.checkEndUserBudget w.logs userId orgId) answer
    | ⟨.perform _ (.checkTeamBudget teamId), answer⟩ =>
      Verdict (tables.checkTeamBudget w.logs teamId) answer
    | ⟨.insertLog i log, answer⟩ => (i, log) ∈ w.spawned ∧ (answer = .ok () → log.row.isSome)
    | _ => True

/-- The steps of one request itself. -/
def performedBy (i : Nat) (tr : LogHistory) : Trace :=
  tr.filterMap fun
    | ⟨.perform j o, answer⟩ => if j = i then some ⟨o, answer⟩ else none
    | ⟨.insertLog _ _, _⟩ => none

/-- A chat request before its body is read. -/
structure ChatCall where
  apiKey : ApiKey
  tags : Option String
  body : Bytes

/-- The handler of the request. -/
def ChatCall.serve (state : AppState) (call : ChatCall) : App Fault Response :=
  chatCompletions state call.apiKey call.tags call.body

end Godwit
