import Godwit.Admin.Users
import Godwit.Lib.Joint

set_option autoImplicit false

/-! # Teams and their members

The tables `teams` and `team_memberships`, the statements of their repositories as operations, and the
handlers of `admin/teams.rs`. The statements on accounts that delete memberships are operations of the
account store; the world has the tables of both. -/

namespace Godwit

/-! ## Rows -/

/-- A row of `teams`. -/
structure Team where
  id : Uuid
  organizationId : Uuid
  name : String
  budgetUsd : Option Decimal
  maxBudgetUsd : Option Decimal
  createdAt : Timestamp
  deriving DecidableEq, Repr

/-- A row of `team_memberships`. -/
structure TeamMembership where
  userId : Uuid
  teamId : Uuid
  role : String
  deriving DecidableEq, Repr

/-- The `teams` table. -/
abbrev TeamTable := Table fun team : Team => team.id

/-- `PRIMARY KEY (user_id, team_id)`. -/
abbrev TeamMembershipTable := Table fun m : TeamMembership => (m.userId, m.teamId)

/-! ## Operations -/

/-- The statements of `TeamRepository` and `TeamMembershipRepository`. -/
inductive TeamOp where
  | listForOrganization (organizationId : Uuid)
  | listAll
  | getById (id : Uuid)
  | create (organizationId : Uuid) (name : String) (budgetUsd maxBudgetUsd : Option Decimal)
  | updateWithBudget (id : Uuid) (name : String) (budgetUsd maxBudgetUsd : Option Decimal)
  | delete (id : Uuid)
  | addMember (teamId userId : Uuid) (role : String)
  | removeMember (teamId userId : Uuid)
  | getMembership (teamId userId : Uuid)
  deriving DecidableEq, Repr

/-- What a statement returns that does not fail. -/
def TeamOp.Row : TeamOp → Type
  | .listForOrganization _ | .listAll => List Team
  | .getById _ | .create _ _ _ _ | .updateWithBudget _ _ _ _ => Team
  | .delete _ | .removeMember _ _ => Unit
  | .addMember _ _ _ | .getMembership _ _ => TeamMembership

/-- The statements and the rows they return. -/
abbrev TeamStore : Signature := ⟨TeamOp, fun o => Except PasteurError o.Row⟩

/-- The statements on accounts and those on teams. -/
abbrev OrgStore : Signature := AccountStore.sum TeamStore

/-! ## Statements -/

/-- The tables of the account handlers together with the teams and their members. -/
structure OrgWorld where
  accounts : AccountWorld
  teams : TeamTable
  memberships : TeamMembershipTable

/-- Which answers the world can give. The columns of the budgets round to four decimals. -/
def OrgWorld.answers (state : AuthState) (s : OrgWorld) : Environment OrgStore
  | .inl o, answer => s.accounts.answers state o answer
  | .inr (.listForOrganization organizationId), fetched =>
    FetchAll (s.teams.rows.filter fun team => team.organizationId = organizationId) fetched
  | .inr .listAll, fetched => FetchAll s.teams.rows fetched
  | .inr (.getById id), fetched => FetchOne (fun found => found = s.teams.find? id) fetched
  | .inr (.create organizationId name _ _), created =>
    FetchRow (fun team => s.teams.find? team.id = none
      ∧ team = ⟨team.id, organizationId, name, team.budgetUsd, team.maxBudgetUsd, team.createdAt⟩) created
  | .inr (.updateWithBudget id name _ _), updated =>
    FetchOne (fun found => match found with
      | some team => ∃ old, s.teams.find? id = some old
        ∧ team = { old with name := name, budgetUsd := team.budgetUsd, maxBudgetUsd := team.maxBudgetUsd }
      | none => s.teams.find? id = none) updated
  | .inr (.delete _), executed => Executed executed
  -- Both columns are foreign keys.
  | .inr (.addMember teamId userId role), added =>
    FetchRow (fun m => m = ⟨userId, teamId, role⟩ ∧ (s.accounts.users.find? userId).isSome
      ∧ (s.teams.find? teamId).isSome) added
  | .inr (.removeMember _ _), executed => Executed executed
  | .inr (.getMembership teamId userId), fetched =>
    FetchOne (fun found => found = s.memberships.find? (userId, teamId)) fetched

/-- What a statement on accounts does to the memberships: `remove_all_for_user`, and the cascade of a
    deleted user. -/
def OrgWorld.afterAccounts (s : OrgWorld) : Step AccountStore → TeamMembershipTable
  | ⟨.removeMemberships userId, .ok ()⟩ => s.memberships.delete fun m => m.userId = userId
  | ⟨.deleteUser id, .ok ()⟩ => s.memberships.delete fun m => m.userId = id
  | _ => s.memberships

/-- The state after a statement; a deleted user or team takes its memberships with it. -/
def OrgWorld.next (state : AuthState) (s : OrgWorld) : Step OrgStore → OrgWorld
  | ⟨.inl o, answer⟩ =>
    { s with accounts := s.accounts.next state ⟨o, answer⟩, memberships := s.afterAccounts ⟨o, answer⟩ }
  | ⟨.inr (.create _ _ _ _), .ok team⟩ => { s with teams := s.teams.insert team }
  | ⟨.inr (.updateWithBudget _ _ _ _), .ok team⟩ => { s with teams := s.teams.replace team }
  | ⟨.inr (.delete id), .ok ()⟩ =>
    { s with
      teams := s.teams.delete fun team => team.id = id
      memberships := s.memberships.delete fun m => m.teamId = id }
  | ⟨.inr (.addMember _ _ _), .ok m⟩ => { s with memberships := s.memberships.upsert m }
  | ⟨.inr (.removeMember teamId userId), .ok ()⟩ =>
    { s with memberships := s.memberships.delete fun m => m.teamId = teamId ∧ m.userId = userId }
  | _ => s

/-- The runs in which every answer is one that the state gives. -/
abbrev orgWorld (state : AuthState) : Monitor OrgStore where
  State := OrgWorld
  next := OrgWorld.next state
  accepts s step := s.answers state step.op step.answer

/-! ## Handlers -/

/-- A handler that asks the team tables. -/
abbrev TeamApp := Program TeamStore ApiError

/-- Perform a statement; `.map_err(ApiError::Core)?`. -/
def askTeams (o : TeamOp) : TeamApp o.Row := do
  let answer ← Program.perform (S := TeamStore) o
  .ofExcept (answer.mapError ApiError.core)

/-- `require_manage_users`: the role of the caller, if it may manage users. -/
def requireManageUsers (claims : Claims) : TeamApp Role :=
  match Role.fromStr claims.role with
  | none => .throw .forbidden
  | some role => if role.canManageUsers then .pure role else .throw .forbidden

/-- The body that creates a team. -/
structure CreateTeamRequest where
  name : String
  organizationId : Option Uuid
  budgetUsd : Option Decimal
  maxBudgetUsd : Option Decimal
  deriving DecidableEq, Repr

/-- The body of a team update: what is absent stays. -/
structure UpdateTeamRequest where
  name : Option String
  budgetUsd : Option Decimal
  maxBudgetUsd : Option Decimal
  deriving DecidableEq, Repr

/-- The body that adds a member. -/
structure AddMemberRequest where
  userId : Uuid
  role : String
  deriving DecidableEq, Repr

/-- `list_teams`: a super admin may name an organization or see every team. -/
def listTeams (claims : Claims) (organizationId : Option Uuid) : TeamApp (List Team) := do
  let role ← requireManageUsers claims
  match role, organizationId with
  | .superAdmin, some orgId => askTeams (.listForOrganization orgId)
  | .superAdmin, none => askTeams .listAll
  | _, _ => askTeams (.listForOrganization claims.organizationId)

/-- The team, if its organization is the caller's or the caller is a super admin. -/
def ownTeam (role : Role) (claims : Claims) (id : Uuid) : TeamApp Team := do
  let team : Team ← askTeams (.getById id)
  if role ≠ .superAdmin ∧ team.organizationId ≠ claims.organizationId then .throw .forbidden else pure team

/-- `get_team`. -/
def getTeam (claims : Claims) (id : Uuid) : TeamApp Team := do
  let role ← requireManageUsers claims
  ownTeam role claims id

/-- The organization of a new team: a super admin has to name it. -/
def newTeamOrganization (role : Role) (claims : Claims) (organizationId : Option Uuid) : Except ApiError Uuid :=
  if role = .superAdmin then
    match organizationId with
    | some organizationId => .ok organizationId
    | none => .error (.badRequest "organization_id is required")
  else .ok claims.organizationId

/-- `create_team`. -/
def createTeam (claims : Claims) (req : CreateTeamRequest) : TeamApp Team := do
  let role ← requireManageUsers claims
  let organizationId ← .ofExcept (newTeamOrganization role claims req.organizationId)
  askTeams (.create organizationId req.name req.budgetUsd req.maxBudgetUsd)

/-- `update_team`: the row is read, merged with the body and written back. -/
def updateTeam (claims : Claims) (id : Uuid) (req : UpdateTeamRequest) : TeamApp Team := do
  let role ← requireManageUsers claims
  let team ← ownTeam role claims id
  askTeams (.updateWithBudget id (req.name.getD team.name) (req.budgetUsd.or team.budgetUsd)
    (req.maxBudgetUsd.or team.maxBudgetUsd))

/-- `delete_team`. -/
def deleteTeam (claims : Claims) (id : Uuid) : TeamApp Unit := do
  let role ← requireManageUsers claims
  let _ ← ownTeam role claims id
  askTeams (.delete id)

/-- Who may change the members of a team: a super admin, an org admin of its organization, and whoever is a
    team admin of this very team. The organization of the member is not looked at. -/
def requireTeamManage (claims : Claims) (teamId : Uuid) : TeamApp Unit :=
  match Role.fromStr claims.role with
  | none => .throw .forbidden
  | some .superAdmin => .pure ()
  | some role => do
    let team : Team ← askTeams (.getById teamId)
    if role = .orgAdmin ∧ team.organizationId = claims.organizationId then .pure ()
    else
      match ← Program.perform (S := TeamStore) (.getMembership teamId claims.userId) with
      | .ok membership => if membership.role = "team_admin" then .pure () else .throw .forbidden
      | .error _ => .throw .forbidden

/-- The two roles of a member. -/
def checkMemberRole (role : String) : Except ApiError Unit :=
  if role ≠ "team_admin" ∧ role ≠ "member" then .error (.badRequest "role must be 'team_admin' or 'member'")
  else .ok ()

/-- `add_member`: the organization of the user is not looked at. -/
def addMember (claims : Claims) (teamId : Uuid) (req : AddMemberRequest) : TeamApp TeamMembership := do
  requireTeamManage claims teamId
  .ofExcept (checkMemberRole req.role)
  askTeams (.addMember teamId req.userId req.role)

/-- `remove_member`. -/
def removeMember (claims : Claims) (teamId userId : Uuid) : TeamApp Unit := do
  requireTeamManage claims teamId
  askTeams (.removeMember teamId userId)

/-! ## Requests -/

/-- The requests on teams, and those on users. -/
inductive OrgCall where
  | listTeams (organizationId : Option Uuid)
  | getTeam (id : Uuid)
  | createTeam (req : CreateTeamRequest)
  | updateTeam (id : Uuid) (req : UpdateTeamRequest)
  | deleteTeam (id : Uuid)
  | addMember (teamId : Uuid) (req : AddMemberRequest)
  | removeMember (teamId userId : Uuid)
  | createUser (req : CreateUserRequest)
  | updateUser (id : Uuid) (req : UpdateUserRequest)
  | deleteUser (id : Uuid)
  deriving DecidableEq, Repr

/-- A request to the team and user handlers with the claims of its access token. -/
structure OrgRequest where
  claims : Claims
  call : OrgCall
  deriving DecidableEq, Repr

/-- What these requests are answered. -/
inductive OrgResponse where
  | teams (data : List Team)
  | team (data : Team)
  | membership (data : TeamMembership)
  | user (data : UserRecord)
  | removed
  | deleted
  deriving DecidableEq, Repr

/-- A response with what a handler returns. -/
def respond {S : Signature} {α : Type} (p : Program S ApiError α) (response : α → OrgResponse) :
    Program S ApiError OrgResponse :=
  p >>= fun a => .pure (response a)

/-- The handler of each request. -/
def OrgRequest.serve (r : OrgRequest) : Program OrgStore ApiError OrgResponse :=
  match r.call with
  | .listTeams organizationId => (respond (listTeams r.claims organizationId) .teams).embed .right
  | .getTeam id => (respond (getTeam r.claims id) .team).embed .right
  | .createTeam req => (respond (createTeam r.claims req) .team).embed .right
  | .updateTeam id req => (respond (updateTeam r.claims id req) .team).embed .right
  | .deleteTeam id => (respond (deleteTeam r.claims id) fun _ => .deleted).embed .right
  | .addMember teamId req => (respond (addMember r.claims teamId req) .membership).embed .right
  | .removeMember teamId userId => (respond (removeMember r.claims teamId userId) fun _ => .removed).embed .right
  | .createUser req => (respond (createUser r.claims req) .user).embed .left
  | .updateUser id req => (respond (updateUser r.claims id req) .user).embed .left
  | .deleteUser id => (respond (deleteUser r.claims id) fun _ => .deleted).embed .left

end Godwit
