import Godwit.Admin.Teams
import Godwit.Providers.DecimalLibraries

set_option autoImplicit false

/-! # End users

The table `end_users`, the statements of its repository as operations, and the handlers of
`admin/end_users.rs`. The world has the tables of accounts and teams beside it, and says what the columns of
the budgets make of the values they are given. -/

namespace Godwit

/-! ## Columns for budgets -/

/-- Rounds to a whole number, and halves away from zero. -/
def roundHalfAway (q : ℚ) : ℤ := if 0 ≤ q then ⌊q + 1 / 2⌋ else -⌊-q + 1 / 2⌋

/-- What a column `NUMERIC(12,4)` stores: four decimals, and no value of more than twelve digits. -/
def numeric (d : Decimal) : Option Decimal :=
  let scaled := roundHalfAway (d.1 * 10 ^ 4)
  if scaled.natAbs < 10 ^ 12 then Decimal.checked (scaled / 10 ^ 4) else none

/-- A nullable column stores what it is given. -/
def Stores (given stored : Option Decimal) : Prop := given.map numeric = stored.map some

instance (given stored : Option Decimal) : Decidable (Stores given stored) :=
  inferInstanceAs (Decidable (given.map numeric = stored.map some))

/-! ## Rows -/

/-- A row of `end_users`: the budgets that a user has in an organization. -/
structure EndUser where
  id : Uuid
  organizationId : Uuid
  userId : Uuid
  budgetUsd : Option Decimal
  maxBudgetUsd : Option Decimal
  createdAt : Timestamp
  updatedAt : Timestamp
  deriving DecidableEq, Repr

/-- `UNIQUE(user_id, organization_id)`. -/
abbrev EndUserTable := Table fun row : EndUser => (row.userId, row.organizationId)

/-! ## Operations -/

/-- The statements of `EndUsersRepository`. -/
inductive EndUserOp where
  | create (organizationId userId : Uuid) (budgetUsd maxBudgetUsd : Option Decimal)
  | getByUser (organizationId userId : Uuid)
  | listByOrganization (organizationId : Uuid)
  | updateBudgets (organizationId userId : Uuid) (budgetUsd maxBudgetUsd : Option Decimal)
  | delete (organizationId userId : Uuid)
  deriving DecidableEq, Repr

/-- What a statement returns that does not fail. -/
def EndUserOp.Row : EndUserOp → Type
  | .create _ _ _ _ | .getByUser _ _ | .updateBudgets _ _ _ _ => EndUser
  | .listByOrganization _ => List EndUser
  | .delete _ _ => Unit

/-- The statements and the rows they return. -/
abbrev EndUserStore : Signature := ⟨EndUserOp, fun o => Except PasteurError o.Row⟩

/-- The statements on accounts and teams, and those on end users. -/
abbrev TenantStore : Signature := OrgStore.sum EndUserStore

/-! ## Statements -/

/-- The tables of the organization and user handlers together with `end_users`. -/
structure TenantWorld where
  org : OrgWorld
  endUsers : EndUserTable

/-- The budgets that a statement on teams has stored. -/
def TeamBudgets : Step OrgStore → Prop
  | ⟨.inr (.create _ _ budgetUsd maxBudgetUsd), .ok team⟩
  | ⟨.inr (.updateWithBudget _ _ budgetUsd maxBudgetUsd), .ok team⟩ =>
    Stores budgetUsd (Team.budgetUsd team) ∧ Stores maxBudgetUsd (Team.maxBudgetUsd team)
  | _ => True

/-- Which answers the world can give. -/
def TenantWorld.answers (state : AuthState) (s : TenantWorld) : Environment TenantStore
  | .inl o, answer => s.org.answers state o answer ∧ TeamBudgets ⟨o, answer⟩
  | .inr (.create organizationId userId budgetUsd maxBudgetUsd), created =>
    FetchRow (fun row => s.endUsers.find? (userId, organizationId) = none
      ∧ (s.org.accounts.users.find? userId).isSome
      ∧ row = ⟨row.id, organizationId, userId, row.budgetUsd, row.maxBudgetUsd, row.createdAt, row.updatedAt⟩
      ∧ Stores budgetUsd row.budgetUsd ∧ Stores maxBudgetUsd row.maxBudgetUsd) created
  | .inr (.getByUser organizationId userId), fetched =>
    FetchOne (fun found => found = s.endUsers.find? (userId, organizationId)) fetched
  | .inr (.listByOrganization organizationId), fetched =>
    FetchAll (s.endUsers.rows.filter fun row => row.organizationId = organizationId) fetched
  | .inr (.updateBudgets organizationId userId budgetUsd maxBudgetUsd), updated =>
    FetchOne (fun found => match found with
      | some row => ∃ old, s.endUsers.find? (userId, organizationId) = some old
        ∧ row = { old with
            budgetUsd := row.budgetUsd
            maxBudgetUsd := row.maxBudgetUsd
            updatedAt := row.updatedAt }
        ∧ Stores budgetUsd row.budgetUsd ∧ Stores maxBudgetUsd row.maxBudgetUsd
      | none => s.endUsers.find? (userId, organizationId) = none) updated
  | .inr (.delete _ _), executed => Executed executed

/-- The end users left by a statement on accounts: their users are there (`ON DELETE CASCADE`). -/
def TenantWorld.afterOrg (s : TenantWorld) : Step OrgStore → EndUserTable
  | ⟨.inl (.deleteUser id), .ok ()⟩ => s.endUsers.delete fun row => row.userId = id
  | _ => s.endUsers

/-- The state after a statement; deleted users take their rows of `end_users` with them. -/
def TenantWorld.next (state : AuthState) (s : TenantWorld) : Step TenantStore → TenantWorld
  | ⟨.inl o, answer⟩ => { s with org := s.org.next state ⟨o, answer⟩, endUsers := s.afterOrg ⟨o, answer⟩ }
  | ⟨.inr (.create _ _ _ _), .ok row⟩ => { s with endUsers := s.endUsers.insert row }
  | ⟨.inr (.updateBudgets _ _ _ _), .ok row⟩ => { s with endUsers := s.endUsers.replace row }
  | ⟨.inr (.delete organizationId userId), .ok ()⟩ =>
    { s with endUsers := s.endUsers.delete fun row => row.organizationId = organizationId ∧ row.userId = userId }
  | _ => s

/-- The runs in which every answer is one that the state gives. -/
abbrev tenantWorld (state : AuthState) : Monitor TenantStore where
  State := TenantWorld
  next := TenantWorld.next state
  accepts s step := s.answers state step.op step.answer

/-! ## Handlers -/

/-- A handler that asks `end_users`. -/
abbrev EndUserApp := Program EndUserStore ApiError

/-- Perform a statement; `.map_err(ApiError::Core)?`. -/
def askEndUsers (o : EndUserOp) : EndUserApp o.Row := do
  let answer ← Program.perform (S := EndUserStore) o
  .ofExcept (answer.mapError ApiError.core)

/-- `require_manage_users` of `admin/end_users.rs`. -/
def requireManageEndUsers (claims : Claims) : EndUserApp Role :=
  match Role.fromStr claims.role with
  | none => .throw .forbidden
  | some role => if role.canManageUsers then .pure role else .throw .forbidden

/-- The body of `POST /end-users`. -/
structure CreateEndUserRequest where
  userId : Uuid
  organizationId : Option Uuid
  budgetUsd : Option Decimal
  maxBudgetUsd : Option Decimal
  deriving DecidableEq, Repr

/-- The body of an end user update. -/
structure UpdateEndUserRequest where
  budgetUsd : Option Decimal
  maxBudgetUsd : Option Decimal
  deriving DecidableEq, Repr

/-- `list_end_users`: only a super admin may name another organization. -/
def listEndUsers (claims : Claims) (organizationId : Option Uuid) : EndUserApp (List EndUser) := do
  let role ← requireManageEndUsers claims
  match role, organizationId with
  | .superAdmin, some orgId => askEndUsers (.listByOrganization orgId)
  | _, _ => askEndUsers (.listByOrganization claims.organizationId)

/-- `get_end_user`: the row in the caller's organization, whatever the role. -/
def getEndUser (claims : Claims) (userId : Uuid) : EndUserApp EndUser := do
  let _ ← requireManageEndUsers claims
  askEndUsers (.getByUser claims.organizationId userId)

/-- `create_end_user`: a super admin may choose the organization. -/
def createEndUser (claims : Claims) (req : CreateEndUserRequest) : EndUserApp EndUser := do
  let role ← requireManageEndUsers claims
  let organizationId ← .ofExcept (newTeamOrganization role claims req.organizationId)
  askEndUsers (.create organizationId req.userId req.budgetUsd req.maxBudgetUsd)

/-- The end user of the caller's organization, which a super admin does not choose either. -/
def ownEndUser (role : Role) (claims : Claims) (userId : Uuid) : EndUserApp EndUser := do
  let endUser : EndUser ← askEndUsers (.getByUser claims.organizationId userId)
  if role ≠ .superAdmin ∧ endUser.organizationId ≠ claims.organizationId then .throw .forbidden else pure endUser

/-- Both budgets are written, given or not. -/
def updateEndUser (claims : Claims) (userId : Uuid) (req : UpdateEndUserRequest) : EndUserApp EndUser := do
  let role ← requireManageEndUsers claims
  let _ ← ownEndUser role claims userId
  askEndUsers (.updateBudgets claims.organizationId userId req.budgetUsd req.maxBudgetUsd)

/-- `delete_end_user`. -/
def deleteEndUser (claims : Claims) (userId : Uuid) : EndUserApp Unit := do
  let role ← requireManageEndUsers claims
  let _ ← ownEndUser role claims userId
  askEndUsers (.delete claims.organizationId userId)

/-! ## Requests -/

/-- The requests to the user, team and end user handlers. -/
inductive TenantCall where
  | org (call : OrgCall)
  | listEndUsers (organizationId : Option Uuid)
  | getEndUser (userId : Uuid)
  | createEndUser (req : CreateEndUserRequest)
  | updateEndUser (userId : Uuid) (req : UpdateEndUserRequest)
  | deleteEndUser (userId : Uuid)
  deriving DecidableEq, Repr

/-- Such a request with the claims of its access token. -/
structure TenantRequest where
  claims : Claims
  call : TenantCall
  deriving DecidableEq, Repr

/-- What these requests are answered. -/
inductive TenantResponse where
  | org (response : OrgResponse)
  | endUsers (data : List EndUser)
  | endUser (data : EndUser)
  | deleted
  deriving DecidableEq, Repr

/-- A response with what a handler returns. -/
def tenantRespond {S : Signature} {α : Type} (p : Program S ApiError α) (response : α → TenantResponse) :
    Program S ApiError TenantResponse :=
  p >>= fun a => .pure (response a)

/-- The handler of each request. -/
def TenantRequest.serve (r : TenantRequest) : Program TenantStore ApiError TenantResponse :=
  match r.call with
  | .org call => (tenantRespond (OrgRequest.serve ⟨r.claims, call⟩) .org).embed .left
  | .listEndUsers organizationId => (tenantRespond (listEndUsers r.claims organizationId) .endUsers).embed .right
  | .getEndUser userId => (tenantRespond (getEndUser r.claims userId) .endUser).embed .right
  | .createEndUser req => (tenantRespond (createEndUser r.claims req) .endUser).embed .right
  | .updateEndUser userId req => (tenantRespond (updateEndUser r.claims userId req) .endUser).embed .right
  | .deleteEndUser userId => (tenantRespond (deleteEndUser r.claims userId) fun _ => .deleted).embed .right

/-! ## Bodies -/

/-- A field of a body: `none` when it is missing, `some none` when it is `null`. An `Option` of a request takes
    both for `None`. -/
abbrev BodyField (α : Type) := Option (Option α)

/-- The body of a team update as it arrives, where a field may be absent or null. -/
structure UpdateTeamBody where
  name : BodyField String
  budgetUsd : BodyField Decimal
  maxBudgetUsd : BodyField Decimal
  deriving DecidableEq, Repr

/-- The body of a user update as it arrives. -/
structure UpdateUserBody where
  name : BodyField String
  role : BodyField String
  organizationId : BodyField Uuid
  deriving DecidableEq, Repr

/-- The body of an end user update as it arrives. -/
structure UpdateEndUserBody where
  budgetUsd : BodyField Decimal
  maxBudgetUsd : BodyField Decimal
  deriving DecidableEq, Repr

/-- What serde makes of it: absent and null are the same. -/
def UpdateTeamBody.request (body : UpdateTeamBody) : UpdateTeamRequest :=
  ⟨body.name.join, body.budgetUsd.join, body.maxBudgetUsd.join⟩

/-- What serde makes of it. -/
def UpdateUserBody.request (body : UpdateUserBody) : UpdateUserRequest :=
  ⟨body.name.join, body.role.join, body.organizationId.join⟩

/-- What serde makes of it. -/
def UpdateEndUserBody.request (body : UpdateEndUserBody) : UpdateEndUserRequest :=
  ⟨body.budgetUsd.join, body.maxBudgetUsd.join⟩

/-- The requests with method `PATCH`. -/
inductive PatchCall where
  | team (id : Uuid) (body : UpdateTeamBody)
  | user (id : Uuid) (body : UpdateUserBody)
  | endUser (userId : Uuid) (body : UpdateEndUserBody)
  deriving DecidableEq, Repr

/-- The request that the update sends to its handler. -/
def PatchCall.request : PatchCall → TenantCall
  | .team id body => .org (.updateTeam id body.request)
  | .user id body => .org (.updateUser id body.request)
  | .endUser userId body => .updateEndUser userId body.request

end Godwit
