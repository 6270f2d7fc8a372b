import Godwit.Admin.SpendLogs
import Godwit.Lib.GroupBy
import Godwit.Providers.DecimalLibraries

set_option autoImplicit false

/-! # Spend reports (`admin/spend.rs`, `admin/spend_tags.rs`)

The queries that sum up `request_logs` in groups, and the handlers that scope them to the caller. A query is a
relation to its answers: the database chooses the order of the rows where the query leaves it open. -/

namespace Godwit

/-! ## The table -/

/-- The numbers that a column `NUMERIC(precision, scale)` can have. -/
def IsNumeric (precision scale : Nat) (q : ℚ) : Prop :=
  ∃ n : ℤ, q = n / 10 ^ scale ∧ n.natAbs < 10 ^ precision

/-- A row of `request_logs` with the columns that the reports read. -/
structure RequestLog extends RequestLogRow where
  organizationId : Uuid
  teamId : Option Uuid
  tags : Option (List (Option String))
  cost_numeric : ∀ cost ∈ costUsd, IsNumeric 12 6 cost.val

/-- The logs that the sums are taken over. -/
abbrev SpendTable := Table fun row : RequestLog => row.id

/-- What a row adds to `SUM(cost_usd)`: nothing if it is null. -/
def RequestLog.cost (row : RequestLog) : ℚ := row.costUsd.elim 0 (·.val)

/-- A sum of counts is an integer of 64 bits. -/
def sumTokens (rows : List RequestLog) (tokens : RequestLog → Option Int32) : Int64 :=
  Int64.ofInt (rows.map fun row => (tokens row).elim 0 Int32.toInt).sum

/-- Days since the epoch. -/
abbrev NaiveDate := Int

/-! ## Answers of a query -/

section Answers

variable {γ β κ ρ : Type}

/-- The database returns rows that have some order, and each is decoded. -/
def Returned (before : γ → γ → Prop) (rows : List γ) (decode : γ → Except String β)
    (answer : Except String (List β)) : Prop :=
  ∃ result, Arrangement before rows result ∧ answer = result.mapM decode

/-- `SELECT key, COALESCE(SUM(cost), 0) … GROUP BY key` -/
def costBy [DecidableEq κ] (key : ρ → κ) (cost : ρ → ℚ) (rows : List ρ) : List (κ × ℚ) :=
  (groupBy key rows).map fun group => (group.1, (group.2.map cost).sum)

/-- `ORDER BY cost DESC` -/
def costliest (group group' : κ × ℚ) : Prop := group'.2 ≤ group.2

/-- `ORDER BY date` -/
def earliest (group group' : NaiveDate × ℚ) : Prop := group.1 ≤ group'.1

instance : DecidableRel (@costliest κ) := fun group group' => inferInstanceAs (Decidable (group'.2 ≤ group.2))

instance : Std.Total (@costliest κ) := ⟨fun group group' => le_total group'.2 group.2⟩

instance : IsTrans (κ × ℚ) costliest := ⟨fun _ _ _ h h' => le_trans h' h⟩

instance : DecidableRel earliest := fun group group' => inferInstanceAs (Decidable (group.1 ≤ group'.1))

instance : Std.Total earliest := ⟨fun group group' => le_total group.1 group'.1⟩

instance : IsTrans (NaiveDate × ℚ) earliest := ⟨fun _ _ _ h h' => le_trans h h'⟩

/-- A number as a decimal. -/
def decodeNumeric (unreadable : ℚ → String) (q : ℚ) : Except String Decimal :=
  match Decimal.checked q with
  | some d => .ok d
  | none => .error (unreadable q)

/-- A key and its sum as a row. -/
def decodeSum (unreadable : ℚ → String) (row : κ → Decimal → β) (group : κ × ℚ) : Except String β := do
  let sum ← decodeNumeric unreadable group.2
  pure (row group.1 sum)

end Answers

/-! ## Spend by organization, team and user, or by day -/

/-- The query of `GET /spend`. -/
structure SpendQuery where
  «from» : Option Timestamp
  «to» : Option Timestamp
  days : Option Int64
  organizationId : Option Uuid
  teamId : Option Uuid
  userId : Option Uuid
  deriving DecidableEq, Repr

/-- `scope_spend_query`: whose spend the role may ask for. -/
def scopeSpendQuery (claims : Claims) (query : SpendQuery) : Option Uuid × Option Uuid × Option Uuid :=
  match Role.fromStr claims.role with
  | some .superAdmin => (query.organizationId, query.teamId, query.userId)
  | some .orgAdmin => (some claims.organizationId, query.teamId, query.userId)
  | _ => (some claims.organizationId, none, some claims.userId)

/-- A sum as the repository returns it. -/
structure SpendRow where
  organizationId : Uuid
  teamId : Option Uuid
  userId : Option Uuid
  totalCostUsd : Decimal
  requestCount : Int64
  tokensIn : Int64
  tokensOut : Int64
  deriving DecidableEq, Repr

/-- A row of the query before it is decoded. -/
structure SpendGroup where
  organizationId : Uuid
  teamId : Option Uuid
  userId : Option Uuid
  totalCost : ℚ
  requestCount : Int64
  tokensIn : Int64
  tokensOut : Int64

/-- The cost of one day. -/
structure DailySpendRow where
  date : NaiveDate
  cost : Decimal
  deriving DecidableEq, Repr

/-- The `WHERE` clause of both queries. -/
def RequestLog.spendMatches (row : RequestLog) («from» «to» : Option Timestamp)
    (organizationId teamId userId : Option Uuid) : Bool :=
  (match «from» with | none => true | some t => decide (t ≤ row.createdAt))
    && (match «to» with | none => true | some t => decide (row.createdAt ≤ t))
    && (organizationId.isNone || some row.organizationId = organizationId)
    && (teamId.isNone || row.teamId = teamId)
    && (userId.isNone || row.userId = userId)

/-- `GROUP BY organization_id, team_id, user_id` -/
def RequestLog.payer (row : RequestLog) : Uuid × Option Uuid × Option Uuid :=
  (row.organizationId, row.teamId, row.userId)

/-- The sums of one group of logs. -/
def spendGroup (group : (Uuid × Option Uuid × Option Uuid) × List RequestLog) : SpendGroup :=
  ⟨group.1.1, group.1.2.1, group.1.2.2, (group.2.map RequestLog.cost).sum, Int64.ofNat group.2.length,
    sumTokens group.2 (·.tokensIn), sumTokens group.2 (·.tokensOut)⟩

section Spend

variable (unreadable : ℚ → String)

/-- The row that sqlx makes of a group, if it can read the cost. -/
def SpendGroup.decode (group : SpendGroup) : Except String SpendRow := do
  let cost ← decodeNumeric unreadable group.totalCost
  pure ⟨group.organizationId, group.teamId, group.userId, cost, group.requestCount, group.tokensIn,
    group.tokensOut⟩

/-- What the query may return: the groups in any order. -/
def FetchSpendRows (logs : SpendTable) («from» «to» : Option Timestamp)
    (organizationId teamId userId : Option Uuid) : Except String (List SpendRow) → Prop :=
  let found := logs.rows.filter fun row => row.spendMatches «from» «to» organizationId teamId userId
  Returned (fun _ _ => True) ((groupBy RequestLog.payer found).map spendGroup) (SpendGroup.decode unreadable)

variable (dayOf : Timestamp → NaiveDate)

/-- The days are those of the time zone of the session. -/
def FetchDailySpendRows (logs : SpendTable) («from» «to» : Option Timestamp)
    (organizationId teamId userId : Option Uuid) : Except String (List DailySpendRow) → Prop :=
  let found := logs.rows.filter fun row => row.spendMatches «from» «to» organizationId teamId userId
  Returned earliest
    (costBy (fun row : RequestLog => dayOf row.createdAt) RequestLog.cost found) (decodeSum unreadable DailySpendRow.mk)

/-- The `data` of the response. -/
inductive SpendData where
  | grouped (rows : List SpendRow)
  | daily (rows : List DailySpendRow)
  deriving DecidableEq, Repr

/-- A failed statement as the handlers report it. -/
def databaseError {α : Type} (result : Except String α) : Except ApiError α :=
  result.mapError fun e => .core (.database e)

/-- `daysAgo` is the time that lies so many days back, if there is one: otherwise the handler panics and there is
    no answer. -/
def GetSpend (daysAgo : Int64 → Option Timestamp) (logs : SpendTable) (claims : Claims) (query : SpendQuery)
    (answer : Option (Except ApiError SpendData)) : Prop :=
  match Role.fromStr claims.role with
  | none => answer = some (.error .forbidden)
  | some _ =>
    let start : Option (Option Timestamp) :=
      match query.from, query.days with
      | some t, _ => some (some t)
      | none, some d => (daysAgo d).map some
      | none, none => some none
    match start with
    | none => answer = none
    | some «from» =>
      let (organizationId, teamId, userId) := scopeSpendQuery claims query
      if query.days.isSome then
        ∃ rows, FetchDailySpendRows unreadable dayOf logs «from» query.to organizationId teamId userId rows
          ∧ answer = some ((databaseError rows).map .daily)
      else
        ∃ rows, FetchSpendRows unreadable logs «from» query.to organizationId teamId userId rows
          ∧ answer = some ((databaseError rows).map .grouped)

end Spend

/-! ## Spend by team, key and tag -/

/-- The query of `GET /spend/tags`. -/
structure SpendTagsQuery where
  «from» : Option Timestamp
  «to» : Option Timestamp
  organizationId : Option Uuid
  tag : Option String
  deriving DecidableEq, Repr

/-- The cost of a team. -/
structure TeamSpend where
  teamId : Option Uuid
  spendUsd : Decimal
  deriving DecidableEq, Repr

/-- The cost of a key. -/
structure ApiKeySpend where
  apiKeyId : Option Uuid
  spendUsd : Decimal
  deriving DecidableEq, Repr

/-- The cost of a tag. -/
structure CustomTagSpend where
  tag : String
  spendUsd : Decimal
  deriving DecidableEq, Repr

/-- The costs by team, key and tag. -/
structure SpendTagsResponse where
  byTeam : List TeamSpend
  byApiKey : List ApiKeySpend
  byCustomTag : List CustomTagSpend
  deriving DecidableEq, Repr

/-- `scope_spend_tags_query`: the organization and the user that the role is confined to. -/
def scopeSpendTagsQuery (claims : Claims) (query : SpendTagsQuery) : Option Uuid × Option Uuid :=
  match Role.fromStr claims.role with
  | some .superAdmin => (query.organizationId, none)
  | some .orgAdmin => (some claims.organizationId, none)
  | _ => (some claims.organizationId, some claims.userId)

/-- The `WHERE` clause that the queries share. -/
def RequestLog.tagsMatches (row : RequestLog) («from» «to» : Option Timestamp)
    (organizationId userId : Option Uuid) : Bool :=
  (match «from» with | none => true | some t => decide (t ≤ row.createdAt))
    && (match «to» with | none => true | some t => decide (row.createdAt ≤ t))
    && (organizationId.isNone || some row.organizationId = organizationId)
    && (userId.isNone || row.userId = userId)

/-- The condition on the tags: `$1 = ANY(tags)`, or that there are any. -/
def RequestLog.hasTag (row : RequestLog) (tag : Option String) : Bool :=
  match row.tags, tag with
  | none, _ => false
  | some tags, some t => decide (some t ∈ tags)
  | some tags, none => !tags.isEmpty

/-- `UNNEST(tags)` -/
def RequestLog.unnested (row : RequestLog) : List (Option String × RequestLog) :=
  (row.tags.getD []).map fun tag => (tag, row)

section Tags

variable (unreadable : ℚ → String)

/-- The row of a tag; the group of logs without a tag is not read. -/
def decodeCustomTagSpend (group : Option String × ℚ) : Except String CustomTagSpend :=
  match group.1 with
  | none =>
    .error "error occurred while decoding column \"tag\": unexpected null; try decoding as an `Option`"
  | some tag => decodeSum unreadable CustomTagSpend.mk (tag, group.2)

variable (logs : SpendTable) («from» «to» : Option Timestamp) (organizationId userId : Option Uuid)

/-- What the query by team may return: the costliest first. -/
def FetchTeamSpend : Except String (List TeamSpend) → Prop :=
  let found := logs.rows.filter fun row => row.tagsMatches «from» «to» organizationId userId
  Returned costliest (costBy (fun row : RequestLog => row.teamId) RequestLog.cost found)
    (decodeSum unreadable TeamSpend.mk)

/-- What the query by key may return: the costliest first. -/
def FetchApiKeySpend : Except String (List ApiKeySpend) → Prop :=
  let found := logs.rows.filter fun row => row.tagsMatches «from» «to» organizationId userId
  Returned costliest (costBy (fun row : RequestLog => row.apiKeyId) RequestLog.cost found)
    (decodeSum unreadable ApiKeySpend.mk)

/-- What the query by tag may return: the costliest first. -/
def FetchCustomTagSpend (tag : Option String) : Except String (List CustomTagSpend) → Prop :=
  let found := logs.rows.filter fun row => row.hasTag tag && row.tagsMatches «from» «to» organizationId userId
  Returned costliest (costBy Prod.fst (fun tagged => tagged.2.cost) (found.flatMap RequestLog.unnested))
    (decodeCustomTagSpend unreadable)

/-- The queries that follow one that fails are not made, and do not count. -/
def GetSpendTags (claims : Claims) (query : SpendTagsQuery) (answer : Except ApiError SpendTagsResponse) : Prop :=
  match Role.fromStr claims.role with
  | none => answer = .error .forbidden
  | some _ =>
    let (organizationId, userId) := scopeSpendTagsQuery claims query
    ∃ byTeam byApiKey byCustomTag,
      FetchTeamSpend unreadable logs query.from query.to organizationId userId byTeam
        ∧ FetchApiKeySpend unreadable logs query.from query.to organizationId userId byApiKey
        ∧ FetchCustomTagSpend unreadable logs query.from query.to organizationId userId query.tag byCustomTag
        ∧ answer = do
          let byTeam ← databaseError byTeam
          let byApiKey ← databaseError byApiKey
          let byCustomTag ← databaseError byCustomTag
          pure ⟨byTeam, byApiKey, byCustomTag⟩

end Tags

end Godwit
