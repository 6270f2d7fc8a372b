import Godwit.Auth.Rbac
import Godwit.Lib.Table
import Godwit.Admin.KeyStore

set_option autoImplicit false

/-! # Spend logs

`admin/spend_logs.rs`: the query over `request_logs` and the handler that answers it. -/

namespace Godwit

/-! ## The table -/

/-- What a spend log shows of a row. -/
structure SpendLogEntry where
  id : Uuid
  apiKeyId : Option Uuid
  model : String
  provider : String
  capability : String
  tokensIn : Option Int32
  tokensOut : Option Int32
  durationMs : Int32
  streamed : Bool
  costUsd : Option Decimal
  status : String
  createdAt : Timestamp
  deriving DecidableEq, Repr

/-- A row of `request_logs`, whose columns `user_id` and `capability` can be null. -/
structure RequestLogRow where
  id : Uuid
  apiKeyId : Option Uuid
  userId : Option Uuid
  model : String
  provider : String
  capability : Option String
  tokensIn : Option Int32
  tokensOut : Option Int32
  durationMs : Int32
  streamed : Bool
  costUsd : Option Decimal
  status : String
  createdAt : Timestamp
  deriving DecidableEq, Repr

/-- The `request_logs` table. -/
abbrev RequestLogTable := Table fun row : RequestLogRow => row.id

/-- A row as a `SpendLogEntry`, whose `capability` must not be null. -/
def RequestLogRow.decode (row : RequestLogRow) : Except String SpendLogEntry :=
  match row.capability with
  | some capability =>
    .ok ⟨row.id, row.apiKeyId, row.model, row.provider, capability, row.tokensIn, row.tokensOut,
      row.durationMs, row.streamed, row.costUsd, row.status, row.createdAt⟩
  | none =>
    .error "error occurred while decoding column \"capability\": unexpected null; try decoding as an `Option`"

/-! ## The query -/

/-- An `i64`. -/
abbrev I64 := { n : Int // -2 ^ 63 ≤ n ∧ n < 2 ^ 63 }

/-- The query of `GET /spend/logs`. -/
structure SpendLogsQuery where
  apiKeyId : Option Uuid
  model : Option String
  «from» : Option Timestamp
  «to» : Option Timestamp
  limit : Option I64
  offset : Option I64
  deriving DecidableEq, Repr

/-- The `WHERE` clause. -/
def RequestLogRow.matches (row : RequestLogRow) (apiKeyId : Option Uuid) (model : Option String)
    («from» «to» : Option Timestamp) : Bool :=
  (apiKeyId.isNone || row.apiKeyId = apiKeyId)
    && (model.isNone || some row.model = model)
    && (match «from» with | none => true | some t => decide (t ≤ row.createdAt))
    && (match «to» with | none => true | some t => decide (row.createdAt ≤ t))

/-- The rows from the newest on, a page of them; the database refuses a negative offset or limit. -/
def fetchSpendLogs (logs : RequestLogTable) (apiKeyId : Option Uuid) (model : Option String)
    («from» «to» : Option Timestamp) (limit offset : Int) : Except String (List SpendLogEntry) :=
  if offset < 0 then .error "error returned from database: OFFSET must not be negative"
  else if limit < 0 then .error "error returned from database: LIMIT must not be negative"
  else
    let found := logs.rows.filter fun row => row.matches apiKeyId model «from» «to»
    let sorted := found.mergeSort fun row row' => decide (row'.createdAt ≤ row.createdAt)
    ((sorted.drop offset.toNat).take limit.toNat).mapM RequestLogRow.decode

/-! ## The handler -/

/-- A page of logs with its limit and offset. -/
structure SpendLogsResponse where
  data : List SpendLogEntry
  limit : Int
  offset : Int
  deriving DecidableEq, Repr

/-- Fifty unless given, and never more than a hundred. -/
def SpendLogsQuery.effectiveLimit (query : SpendLogsQuery) : Int := min (query.limit.elim 50 (·.val)) 100

/-- Zero unless given. -/
def SpendLogsQuery.effectiveOffset (query : SpendLogsQuery) : Int := query.offset.elim 0 (·.val)

/-- `get_spend_logs`. -/
def getSpendLogs (logs : RequestLogTable) (claims : Claims) (query : SpendLogsQuery) :
    Except ApiError SpendLogsResponse := do
  let role ← match Role.fromStr claims.role with
    | some role => .ok role
    | none => .error .forbidden
  -- Only a super admin can ask for one key.
  let apiKeyId := match role with
    | .superAdmin => query.apiKeyId
    | _ => none
  let limit := query.effectiveLimit
  let offset := query.effectiveOffset
  let entries ← (fetchSpendLogs logs apiKeyId query.model query.from query.to limit offset).mapError
    fun e => .core (.database e)
  pure ⟨entries, limit, offset⟩

end Godwit
