import Godwit.Admin.EndUsers

set_option autoImplicit false

/-! # Organizations

The table `organizations`, the statements of its repository as operations, and the handlers of
`admin/organizations.rs`. The world has the tables of the tenants beside it. -/

namespace Godwit

/-- The `organizations` table. -/
abbrev OrganizationTable := Table fun org : OrganizationRow => org.id

/-! ## Operations -/

/-- The statements of `OrganizationRepository`. -/
inductive OrganizationOp where
  | createWithLimits (name : String) (rateLimitRequestsPerMinute rateLimitTokensPerMinute : Option Int32)
  | getById (id : Uuid)
  | list
  | updateWithLimits (id : Uuid) (name : String) (rateLimitRequestsPerMinute rateLimitTokensPerMinute : Option Int32)
  | delete (id : Uuid)
  deriving DecidableEq, Repr

/-- What a statement returns that does not fail. -/
def OrganizationOp.Row : OrganizationOp → Type
  | .createWithLimits _ _ _ | .getById _ | .updateWithLimits _ _ _ _ => OrganizationRow
  | .list => List OrganizationRow
  | .delete _ => Unit

/-- The statements and the rows they return. -/
abbrev OrganizationStore : Signature := ⟨OrganizationOp, fun o => Except PasteurError o.Row⟩

/-- The statements on tenants, and those on organizations. -/
abbrev AdminStore : Signature := TenantStore.sum OrganizationStore

/-! ## Statements -/

/-- The tables of the tenant handlers together with `organizations`. -/
structure AdminWorld where
  tenant : TenantWorld
  organizations : OrganizationTable

/-- No user and no team is of this organization. -/
def AdminWorld.Unreferenced (s : AdminWorld) (id : Uuid) : Prop :=
  (∀ user ∈ s.tenant.org.accounts.users, user.organizationId ≠ some id)
    ∧ ∀ team ∈ s.tenant.org.teams, team.organizationId ≠ id

/-- Which answers the world can give. -/
def AdminWorld.answers (state : AuthState) (s : AdminWorld) : Environment AdminStore
  | .inl o, answer => s.tenant.answers state o answer
  | .inr (.createWithLimits name requests tokens), created =>
    FetchRow (fun org => s.organizations.find? org.id = none ∧ org = ⟨⟨org.id, requests, tokens⟩, name⟩) created
  | .inr (.getById id), fetched => FetchOne (fun found => found = s.organizations.find? id) fetched
  | .inr .list, fetched => FetchAll s.organizations.rows fetched
  | .inr (.updateWithLimits id name requests tokens), updated =>
    FetchRow (fun org => (s.organizations.find? id).isSome ∧ org = ⟨⟨id, requests, tokens⟩, name⟩) updated
  -- The columns of users and teams are foreign keys without a cascade.
  | .inr (.delete id), executed => Executed executed ∧ (executed = .ok () → s.Unreferenced id)

/-- The state after a statement; a deleted organization takes its end users with it. -/
def AdminWorld.next (state : AuthState) (s : AdminWorld) : Step AdminStore → AdminWorld
  | ⟨.inl o, answer⟩ => { s with tenant := s.tenant.next state ⟨o, answer⟩ }
  | ⟨.inr (.createWithLimits _ _ _), .ok org⟩ => { s with organizations := s.organizations.insert org }
  | ⟨.inr (.updateWithLimits _ _ _ _), .ok org⟩ => { s with organizations := s.organizations.replace org }
  | ⟨.inr (.delete id), .ok ()⟩ =>
    { s with
      tenant := { s.tenant with endUsers := s.tenant.endUsers.delete fun row => row.organizationId = id }
      organizations := s.organizations.delete fun org => org.id = id }
  | _ => s

/-- The runs in which every answer is one that the state gives. -/
abbrev adminWorld (state : AuthState) : Monitor AdminStore where
  State := AdminWorld
  next := AdminWorld.next state
  accepts s step := s.answers state step.op step.answer

/-! ## Handlers -/

/-- A handler that asks `organizations`. -/
abbrev OrganizationApp := Program OrganizationStore ApiError

/-- Perform a statement; `.map_err(ApiError::Core)?`. -/
def askOrganizations (o : OrganizationOp) : OrganizationApp o.Row := do
  let answer ← Program.perform (S := OrganizationStore) o
  .ofExcept (answer.mapError ApiError.core)

/-- `require_super_admin`. -/
def requireSuperAdmin (claims : Claims) : OrganizationApp Unit :=
  match Role.fromStr claims.role with
  | none => .throw .forbidden
  | some role => if role ≠ .superAdmin then .throw .forbidden else .pure ()

/-- The body of `POST /organizations`. -/
structure CreateOrganizationRequest where
  name : String
  rateLimitRequestsPerMinute : Option Int32
  rateLimitTokensPerMinute : Option Int32
  deriving DecidableEq, Repr

/-- The body of an organization update: what is absent stays. -/
structure UpdateOrganizationRequest where
  name : Option String
  rateLimitRequestsPerMinute : Option Int32
  rateLimitTokensPerMinute : Option Int32
  deriving DecidableEq, Repr

/-- `get_organization`. -/
def getOrganization (claims : Claims) (id : Uuid) : OrganizationApp OrganizationRow := do
  requireSuperAdmin claims
  askOrganizations (.getById id)

/-- `list_organizations`. -/
def listOrganizations (claims : Claims) : OrganizationApp (List OrganizationRow) := do
  requireSuperAdmin claims
  askOrganizations .list

/-- `create_organization`. -/
def createOrganization (claims : Claims) (req : CreateOrganizationRequest) : OrganizationApp OrganizationRow := do
  requireSuperAdmin claims
  askOrganizations (.createWithLimits req.name req.rateLimitRequestsPerMinute req.rateLimitTokensPerMinute)

/-- `OrganizationRepository::update_with_limits`: what is not given is written back as it was read. -/
def updateWithLimits (id : Uuid) (name : Option String)
    (rateLimitRequestsPerMinute rateLimitTokensPerMinute : Option Int32) : OrganizationApp OrganizationRow := do
  let current : OrganizationRow ← askOrganizations (.getById id)
  askOrganizations (.updateWithLimits id (name.getD current.name)
    (rateLimitRequestsPerMinute.or current.rateLimitRequestsPerMinute)
    (rateLimitTokensPerMinute.or current.rateLimitTokensPerMinute))

/-- `update_organization`: the name and the limits are read and written back. -/
def updateOrganization (claims : Claims) (id : Uuid) (req : UpdateOrganizationRequest) :
    OrganizationApp OrganizationRow := do
  requireSuperAdmin claims
  updateWithLimits id req.name req.rateLimitRequestsPerMinute req.rateLimitTokensPerMinute

/-- `delete_organization`. -/
def deleteOrganization (claims : Claims) (id : Uuid) : OrganizationApp Unit := do
  requireSuperAdmin claims
  askOrganizations (.delete id)

/-! ## Requests -/

/-- Every request of the administration that writes users, teams, end users or organizations. -/
inductive AdminCall where
  | tenant (call : TenantCall)
  | listOrganizations
  | getOrganization (id : Uuid)
  | createOrganization (req : CreateOrganizationRequest)
  | updateOrganization (id : Uuid) (req : UpdateOrganizationRequest)
  | deleteOrganization (id : Uuid)
  deriving DecidableEq, Repr

/-- Such a request with the claims of its access token. -/
structure AdminRequest where
  claims : Claims
  call : AdminCall
  deriving DecidableEq, Repr

/-- What these requests are answered. -/
inductive AdminResponse where
  | tenant (response : TenantResponse)
  | organizations (data : List OrganizationRow)
  | organization (data : OrganizationRow)
  | deleted
  deriving DecidableEq, Repr

/-- A response with what a handler returns. -/
def adminRespond {S : Signature} {α : Type} (p : Program S ApiError α) (response : α → AdminResponse) :
    Program S ApiError AdminResponse :=
  p >>= fun a => .pure (response a)

/-- The handler of each request. -/
def AdminRequest.serve (r : AdminRequest) : Program AdminStore ApiError AdminResponse :=
  match r.call with
  | .tenant call => (adminRespond (TenantRequest.serve ⟨r.claims, call⟩) .tenant).embed .left
  | .listOrganizations => (adminRespond (listOrganizations r.claims) .organizations).embed .right
  | .getOrganization id => (adminRespond (getOrganization r.claims id) .organization).embed .right
  | .createOrganization req => (adminRespond (createOrganization r.claims req) .organization).embed .right
  | .updateOrganization id req => (adminRespond (updateOrganization r.claims id req) .organization).embed .right
  | .deleteOrganization id => (adminRespond (deleteOrganization r.claims id) fun _ => .deleted).embed .right

end Godwit
