import Mathlib.Tactic.SplitIfs
import Godwit.Core.Error

set_option autoImplicit false

/-! # Roles and claims

`rbac.rs` and the claims of `jwt.rs`. Claims carry the role as text; a text that names no role is
refused wherever a role is needed. -/

namespace Godwit

/-- The roles of a user. -/
inductive Role where
  | superAdmin
  | orgAdmin
  | teamAdmin
  | user
  deriving DecidableEq, Repr

/-- `Role::from_str`: any other text is no role. -/
def Role.fromStr (s : String) : Option Role :=
  if s = "super_admin" then some .superAdmin
  else if s = "org_admin" then some .orgAdmin
  else if s = "team_admin" then some .teamAdmin
  else if s = "user" then some .user
  else none

/-- `can_manage_users`. -/
def Role.canManageUsers : Role → Bool
  | .superAdmin | .orgAdmin => true
  | .teamAdmin | .user => false

/-- `can_manage_api_keys`. -/
def Role.canManageApiKeys : Role → Bool
  | .superAdmin | .orgAdmin | .teamAdmin => true
  | .user => false

/-- The text of a role in the users table: `UserRole::as_str`. -/
def Role.asStr : Role → String
  | .superAdmin => "super_admin"
  | .orgAdmin => "org_admin"
  | .teamAdmin => "team_admin"
  | .user => "user"

@[simp] theorem Role.fromStr_asStr (role : Role) : Role.fromStr role.asStr = some role := by
  cases role <;> decide

theorem Role.fromStr_eq_some_iff {s : String} {role : Role} :
    Role.fromStr s = some role ↔ s = role.asStr := by
  constructor
  · intro h
    unfold Role.fromStr at h
    split_ifs at h with h₁ h₂ h₃ h₄
    all_goals
      cases h
      assumption
  · rintro rfl
    exact Role.fromStr_asStr role

/-- The claims that the handlers read. -/
structure Claims where
  userId : Uuid
  organizationId : Uuid
  role : String
  deriving DecidableEq, Repr

end Godwit
