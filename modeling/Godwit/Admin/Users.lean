import Godwit.Admin.AccountStore

set_option autoImplicit false

/-! # User administration

The handlers of `admin/users.rs`, as programs over the account store. -/

namespace Godwit

/-- A handler that asks the account store. -/
abbrev AccountApp := Program AccountStore ApiError

/-- Perform an operation of the account store. -/
def askAccounts {ε : Type} (o : AccountOp) : Program AccountStore ε o.Answer :=
  Program.perform (S := AccountStore) o

/-- `.map_err(ApiError::Core)?` -/
def orCoreError {α : Type} (r : Except PasteurError α) : AccountApp α :=
  .ofExcept (r.mapError ApiError.core)

/-- `check?` on a check that computes. -/
def orFail {α : Type} (r : Except ApiError α) : AccountApp α := .ofExcept r

/-! ## Checks -/

/-- `require_role`: the role of the caller, if it is among the allowed ones. -/
def requireRole (claims : Claims) (allowed : List Role) : Except ApiError Role :=
  match Role.fromStr claims.role with
  | none => .error .forbidden
  | some role => if role ∈ allowed then .ok role else .error .forbidden

/-- `check_same_org`: only a super admin reaches other organizations. -/
def checkSameOrg (role : Role) (claims : Claims) (targetOrg : Option Uuid) : Except ApiError Unit :=
  if role ≠ .superAdmin ∧ targetOrg ≠ some claims.organizationId then .error .forbidden else .ok ()

/-- `check_not_acting_on_super_admin`. -/
def checkNotActingOnSuperAdmin (role : Role) (targetRole : String) : Except ApiError Unit :=
  if role ≠ .superAdmin ∧ targetRole = "super_admin" then .error .forbidden else .ok ()

/-! ## Handlers -/

/-- The body that creates a user. -/
structure CreateUserRequest where
  email : String
  name : Option String
  role : String
  deriving DecidableEq, Repr

/-- The body of a user update: what is absent stays. -/
structure UpdateUserRequest where
  name : Option String
  role : Option String
  organizationId : Option Uuid
  deriving DecidableEq, Repr

/-- `create_user`: the new user is in the organization of the caller. -/
def createUser (claims : Claims) (req : CreateUserRequest) : AccountApp UserRecord := do
  let callerRole ← orFail (requireRole claims [.superAdmin, .orgAdmin])
  let role ← orFail (match Role.fromStr req.role with
    | some role => .ok role
    | none => .error (.badRequest "invalid role"))
  orFail (if req.role = "super_admin" ∧ callerRole ≠ .superAdmin then .error .forbidden else .ok ())
  let user ← orCoreError (← askAccounts
    (.createUser req.email req.name role (some claims.organizationId)))
  pure user.toUserRecord

/-- `UserRepository::update`: what is not given is written back as it was read. -/
def updateUserRow (id : Uuid) (name role : Option String) (organizationId : Option Uuid) :
    AccountApp User := do
  let current ← orCoreError (← askAccounts (.getUserById id))
  orCoreError (← askAccounts (.updateUser id (name.or current.name) (role.getD current.role)
    (organizationId.or current.organizationId)))

/-- What a role in an update must satisfy. -/
def checkNewRole (role : Role) : Option String → Except ApiError Unit
  | none => .ok ()
  | some roleStr =>
    match Role.fromStr roleStr with
    | none => .error (.badRequest "invalid role")
    | some _ => if roleStr = "super_admin" ∧ role ≠ .superAdmin then .error .forbidden else .ok ()

/-- `update_user`. -/
def updateUser (claims : Claims) (id : Uuid) (req : UpdateUserRequest) : AccountApp UserRecord := do
  let role ← orFail (requireRole claims [.superAdmin, .orgAdmin])
  orFail (if req.role.isSome ∧ claims.userId = id then .error (.badRequest "cannot change your own role")
    else .ok ())
  let target ← orCoreError (← askAccounts (.getUserById id))
  orFail (checkSameOrg role claims target.organizationId)
  orFail (checkNotActingOnSuperAdmin role target.role)
  orFail (if req.organizationId.isSome ∧ role ≠ .superAdmin then .error .forbidden else .ok ())
  orFail (checkNewRole role req.role)
  let reassigningOrg := req.organizationId.isSome ∧ req.organizationId ≠ target.organizationId
  let updated ← updateUserRow id req.name req.role req.organizationId
  if reassigningOrg then orCoreError (← askAccounts (.removeMemberships id))
  pure updated.toUserRecord

/-- `delete_user`. -/
def deleteUser (claims : Claims) (id : Uuid) : AccountApp Unit := do
  let role ← orFail (requireRole claims [.superAdmin, .orgAdmin])
  orFail (if claims.userId = id then .error (.badRequest "cannot delete your own account") else .ok ())
  let target ← orCoreError (← askAccounts (.getUserById id))
  orFail (checkSameOrg role claims target.organizationId)
  orFail (checkNotActingOnSuperAdmin role target.role)
  orCoreError (← askAccounts (.deleteUser id))

end Godwit
