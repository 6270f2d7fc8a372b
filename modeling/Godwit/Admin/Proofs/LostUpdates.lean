import Godwit.Admin.Organizations
import Godwit.Admin.Proofs.PartialUpdates
import Godwit.Lib.ReadThenWrite

set_option autoImplicit false

/-! # Lost updates

An update of a team, a user or an organization reads the row, merges the fields of the body into it and writes all of
its columns. When another update of the row is written in between, what that one has set is written over with what was
there before. -/

namespace Godwit

/-! ## Updates -/

/-- An update of the row with this id. -/
inductive RowUpdate where
  | team (id : Uuid) (req : UpdateTeamRequest)
  | user (id : Uuid) (req : UpdateUserRequest)
  | organization (id : Uuid) (req : UpdateOrganizationRequest)
  deriving DecidableEq, Repr

/-- The request of the update. -/
def RowUpdate.call : RowUpdate → AdminCall
  | .team id req => .tenant (.org (.updateTeam id req))
  | .user id req => .tenant (.org (.updateUser id req))
  | .organization id req => .updateOrganization id req

/-- The updates are of the same row, and no field is set by both. -/
def RowUpdate.Splits : RowUpdate → RowUpdate → Prop
  | .team id a, .team id' b => id = id' ∧ (a.name = none ∨ b.name = none) ∧ (a.budgetUsd = none ∨ b.budgetUsd = none)
    ∧ (a.maxBudgetUsd = none ∨ b.maxBudgetUsd = none)
  | .user id a, .user id' b => id = id' ∧ (a.name = none ∨ b.name = none) ∧ (a.role = none ∨ b.role = none)
    ∧ (a.organizationId = none ∨ b.organizationId = none)
  | .organization id a, .organization id' b => id = id' ∧ (a.name = none ∨ b.name = none)
    ∧ (a.rateLimitRequestsPerMinute = none ∨ b.rateLimitRequestsPerMinute = none)
    ∧ (a.rateLimitTokensPerMinute = none ∨ b.rateLimitTokensPerMinute = none)
  | _, _ => False

/-- The row has what the request sets, as its columns store it. -/
def UpdateTeamRequest.CarriedBy (req : UpdateTeamRequest) (row : Team) : Prop :=
  (∀ name, req.name = some name → row.name = name)
    ∧ (∀ budget, req.budgetUsd = some budget → Stores (some budget) row.budgetUsd)
    ∧ ∀ budget, req.maxBudgetUsd = some budget → Stores (some budget) row.maxBudgetUsd

/-- The row has every value that the update names. -/
def UpdateUserRequest.CarriedBy (req : UpdateUserRequest) (row : User) : Prop :=
  (∀ name, req.name = some name → row.name = some name)
    ∧ (∀ role, req.role = some role → row.role = role)
    ∧ ∀ id, req.organizationId = some id → row.organizationId = some id

/-- The row has every value that the update names. -/
def UpdateOrganizationRequest.CarriedBy (req : UpdateOrganizationRequest) (row : OrganizationRow) : Prop :=
  (∀ name, req.name = some name → row.name = name)
    ∧ (∀ limit, req.rateLimitRequestsPerMinute = some limit → row.rateLimitRequestsPerMinute = some limit)
    ∧ ∀ limit, req.rateLimitTokensPerMinute = some limit → row.rateLimitTokensPerMinute = some limit

/-- The row is there and has what the update sets. -/
def RowUpdate.CarriedBy (s : AdminWorld) : RowUpdate → Prop
  | .team id req => ∃ row, s.tenant.org.teams.find? id = some row ∧ req.CarriedBy row
  | .user id req => ∃ row, s.tenant.org.accounts.users.find? id = some row ∧ req.CarriedBy row
  | .organization id req => ∃ row, s.organizations.find? id = some row ∧ req.CarriedBy row

/-- The statements that read a row by its id. -/
def readsRow : AdminStore.Op → Bool
  | .inl (.inl (.inl (.getUserById _))) | .inl (.inl (.inr (.getById _))) | .inr (.getById _) => true
  | _ => false

/-- The statements that write the columns of an update. -/
def writesRow : AdminStore.Op → Bool
  | .inl (.inl (.inl (.updateUser _ _ _ _))) | .inl (.inl (.inr (.updateWithBudget _ _ _ _)))
  | .inr (.updateWithLimits _ _ _ _) => true
  | _ => false

section Found

variable {s : AdminWorld} {id : Uuid}

theorem RowUpdate.carriedBy_team {req : UpdateTeamRequest} {row : Team}
    (h : s.tenant.org.teams.find? id = some row) : (RowUpdate.team id req).CarriedBy s ↔ req.CarriedBy row := by
  simp [RowUpdate.CarriedBy, h]

theorem RowUpdate.carriedBy_user {req : UpdateUserRequest} {row : User}
    (h : s.tenant.org.accounts.users.find? id = some row) :
    (RowUpdate.user id req).CarriedBy s ↔ req.CarriedBy row := by
  simp [RowUpdate.CarriedBy, h]

theorem RowUpdate.carriedBy_organization {req : UpdateOrganizationRequest} {row : OrganizationRow}
    (h : s.organizations.find? id = some row) : (RowUpdate.organization id req).CarriedBy s ↔ req.CarriedBy row := by
  simp [RowUpdate.CarriedBy, h]

end Found

theorem RowUpdate.Splits.symm {u v : RowUpdate} (h : u.Splits v) : v.Splits u := by
  cases u <;> cases v <;> first | exact h.elim | skip
  all_goals
    obtain ⟨rfl, hfirst, hsecond, hthird⟩ := h
    exact ⟨rfl, hfirst.symm, hsecond.symm, hthird.symm⟩

/-! ## Statements -/

/-- The two statements of an update, with the row that was read and the one that is written. -/
structure ReadWrite where
  read : Step AdminStore
  write : Step AdminStore

/-- The two statements of a team update: the fields it does not name are those of the row it read. -/
def teamSteps (id : Uuid) (req : UpdateTeamRequest) (old row : Team) : ReadWrite where
  read := ⟨.inl (.inl (.inr (.getById id))), .ok old⟩
  write := ⟨.inl (.inl (.inr (.updateWithBudget id (req.name.getD old.name) (req.budgetUsd.or old.budgetUsd)
    (req.maxBudgetUsd.or old.maxBudgetUsd)))), .ok row⟩

/-- The two statements of a user update. -/
def userSteps (id : Uuid) (req : UpdateUserRequest) (old row : User) : ReadWrite where
  read := ⟨.inl (.inl (.inl (.getUserById id))), .ok old⟩
  write := ⟨.inl (.inl (.inl (.updateUser id (req.name.or old.name) (req.role.getD old.role)
    (req.organizationId.or old.organizationId)))), .ok row⟩

/-- The two statements of an organization update. -/
def organizationSteps (id : Uuid) (req : UpdateOrganizationRequest) (old row : OrganizationRow) : ReadWrite where
  read := ⟨.inr (.getById id), .ok old⟩
  write := ⟨.inr (.updateWithLimits id (req.name.getD old.name)
    (req.rateLimitRequestsPerMinute.or old.rateLimitRequestsPerMinute)
    (req.rateLimitTokensPerMinute.or old.rateLimitTokensPerMinute)), .ok row⟩

/-! ## Runs -/

section Runs

variable {claims : Claims} {id : Uuid}

theorem requireManageUsers_silent {env : Environment TeamStore} {tr : List (Step TeamStore)} {role : Role}
    (h : (requireManageUsers claims).Runs env tr (.ok role)) : tr = [] := by
  unfold requireManageUsers at h
  split at h
  · cases h
  · split_ifs at h
    · exact (Program.runs_pure_iff.1 h).1
    · cases h

theorem updateTeam_runs {env : Environment TeamStore} {tr : List (Step TeamStore)} {req : UpdateTeamRequest}
    {team : Team} (h : (updateTeam claims id req).Runs env tr (.ok team)) :
    ∃ old row : Team, tr = [⟨.getById id, .ok old⟩, ⟨.updateWithBudget id (req.name.getD old.name)
      (req.budgetUsd.or old.budgetUsd) (req.maxBudgetUsd.or old.maxBudgetUsd), .ok row⟩] := by
  obtain ⟨role, first, second, rfl, hrole, hupdate⟩ := h.bind_ok
  obtain rfl := requireManageUsers_silent hrole
  obtain ⟨old, first, second, rfl, hown, hwrite⟩ := hupdate.bind_ok
  obtain ⟨old', rest, rfl, hcheck⟩ := hown.perform_ofExcept_ok
  have hread : rest = [] ∧ old' = old := by
    split_ifs at hcheck
    · cases hcheck
    · obtain ⟨rfl, hold⟩ := Program.runs_pure_iff.1 hcheck
      exact ⟨rfl, (Except.ok.inj hold).symm⟩
  obtain ⟨rfl, rfl⟩ := hread
  obtain ⟨answer, rest, rfl, -, hanswer⟩ := Program.runs_perform_bind_iff.1 hwrite
  obtain ⟨rfl, hrow⟩ := Program.runs_ofExcept_iff.1 hanswer
  cases answer with
  | error e => cases hrow
  | ok row => exact ⟨old', row, rfl⟩

theorem updateUserRow_runs {env : Environment AccountStore} {tr : List (Step AccountStore)} {name role : Option String}
    {organizationId : Option Uuid} {user : User}
    (h : (updateUserRow id name role organizationId).Runs env tr (.ok user)) :
    ∃ current row : User, tr = [⟨.getUserById id, .ok current⟩, ⟨.updateUser id (name.or current.name)
      (role.getD current.role) (organizationId.or current.organizationId), .ok row⟩] := by
  obtain ⟨answer, rest, rfl, -, hread⟩ := Program.runs_perform_bind_iff.1 h
  obtain ⟨current, hcurrent, hmerge⟩ := hread.ofExcept_bind_ok
  obtain ⟨answer', rest, rfl, -, hwrite⟩ := Program.runs_perform_bind_iff.1 hmerge
  obtain ⟨rfl, hrow⟩ := Program.runs_ofExcept_iff.1 hwrite
  cases answer with
  | error e => cases hcurrent
  | ok current' =>
      cases hcurrent
      cases answer' with
      | error e => cases hrow
      | ok row => exact ⟨current, row, rfl⟩

theorem updateUser_runs {env : Environment AccountStore} {tr : List (Step AccountStore)} {req : UpdateUserRequest}
    {user : UserRecord} (h : (updateUser claims id req).Runs env tr (.ok user)) :
    ∃ target current row : User, ∃ rest, tr = ⟨.getUserById id, .ok target⟩ :: ⟨.getUserById id, .ok current⟩
        :: ⟨.updateUser id (req.name.or current.name) (req.role.getD current.role)
          (req.organizationId.or current.organizationId), .ok row⟩ :: rest
      ∧ ∀ step ∈ rest, step.op = .removeMemberships id := by
  obtain ⟨role, -, hself⟩ := h.ofExcept_bind_ok
  obtain ⟨_, -, hget⟩ := hself.ofExcept_bind_ok
  obtain ⟨answer, rest, rfl, -, hanswer⟩ := Program.runs_perform_bind_iff.1 hget
  obtain ⟨target, htarget, horg⟩ := hanswer.ofExcept_bind_ok
  obtain ⟨_, -, hadmin⟩ := horg.ofExcept_bind_ok
  obtain ⟨_, -, hmove⟩ := hadmin.ofExcept_bind_ok
  obtain ⟨_, -, hnew⟩ := hmove.ofExcept_bind_ok
  obtain ⟨_, -, hupdate⟩ := hnew.ofExcept_bind_ok
  obtain ⟨updated, first, second, rfl, hrow, hlast⟩ := hupdate.bind_ok
  obtain ⟨current, row, rfl⟩ := updateUserRow_runs hrow
  cases answer with
  | error e => cases htarget
  | ok target' =>
      refine ⟨target', current, row, second, rfl, ?_⟩
      split at hlast
      · obtain ⟨executed, rest, rfl, -, hexecuted⟩ := Program.runs_perform_bind_iff.1 hlast
        obtain ⟨_, -, hpure⟩ := hexecuted.ofExcept_bind_ok
        obtain ⟨rfl, -⟩ := Program.runs_pure_iff.1 hpure
        exact fun step hstep => by rw [List.mem_singleton.1 hstep]
      · obtain ⟨rfl, -⟩ := Program.runs_pure_iff.1 hlast
        exact fun step hstep => by cases hstep

theorem requireSuperAdmin_silent {env : Environment OrganizationStore} {tr : List (Step OrganizationStore)}
    (h : (requireSuperAdmin claims).Runs env tr (.ok ())) : tr = [] := by
  unfold requireSuperAdmin at h
  split at h
  · cases h
  · split_ifs at h
    · cases h
    · exact (Program.runs_pure_iff.1 h).1

theorem updateOrganization_runs {env : Environment OrganizationStore} {tr : List (Step OrganizationStore)}
    {req : UpdateOrganizationRequest} {org : OrganizationRow}
    (h : (updateOrganization claims id req).Runs env tr (.ok org)) :
    ∃ current row : OrganizationRow, tr = [⟨.getById id, .ok current⟩,
      ⟨.updateWithLimits id (req.name.getD current.name)
        (req.rateLimitRequestsPerMinute.or current.rateLimitRequestsPerMinute)
        (req.rateLimitTokensPerMinute.or current.rateLimitTokensPerMinute), .ok row⟩] := by
  obtain ⟨_, first, second, rfl, hadmin, hupdate⟩ := h.bind_ok
  obtain rfl := requireSuperAdmin_silent hadmin
  obtain ⟨current, rest, rfl, hwrite⟩ := hupdate.perform_ofExcept_ok
  obtain ⟨answer, rest, rfl, -, hanswer⟩ := Program.runs_perform_bind_iff.1 hwrite
  obtain ⟨rfl, hrow⟩ := Program.runs_ofExcept_iff.1 hanswer
  cases answer with
  | error e => cases hrow
  | ok row => exact ⟨current, row, rfl⟩

variable {env : Environment AdminStore} {run : List (Step AdminStore)} {response : AdminResponse}

/-- A request on teams or users among the requests of the administration. -/
theorem org_runs {call : OrgCall}
    (h : (AdminRequest.serve ⟨claims, .tenant (.org call)⟩).Runs env run (.ok response)) :
    ∃ (env' : Environment OrgStore) (own : List (Step OrgStore)) (answer : OrgResponse),
      run = (own.map Signature.Embedding.left.step).map Signature.Embedding.left.step
        ∧ (OrgRequest.serve ⟨claims, call⟩).Runs env' own (.ok answer) := by
  obtain ⟨own, rfl, htenant⟩ := Program.runs_embed_iff.1 h
  obtain ⟨_, htenant, -⟩ := htenant.bind_pure_ok
  obtain ⟨own, rfl, horg⟩ := Program.runs_embed_iff.1 htenant
  obtain ⟨answer, horg, -⟩ := horg.bind_pure_ok
  exact ⟨_, own, answer, rfl, horg⟩

theorem serve_updateTeam_runs {req : UpdateTeamRequest}
    (h : (AdminRequest.serve ⟨claims, (RowUpdate.team id req).call⟩).Runs env run (.ok response)) :
    ∃ old row : Team, run = [(teamSteps id req old row).read, (teamSteps id req old row).write] := by
  obtain ⟨_, own, _, rfl, horg⟩ := org_runs h
  obtain ⟨own, rfl, hteam⟩ := Program.runs_embed_iff.1 horg
  obtain ⟨_, hteam, -⟩ := hteam.bind_pure_ok
  obtain ⟨old, row, rfl⟩ := updateTeam_runs hteam
  exact ⟨old, row, rfl⟩

theorem serve_updateUser_runs {req : UpdateUserRequest}
    (h : (AdminRequest.serve ⟨claims, (RowUpdate.user id req).call⟩).Runs env run (.ok response)) :
    ∃ target old row : User, ∃ rest, run = ⟨.inl (.inl (.inl (.getUserById id))), .ok target⟩
        :: (userSteps id req old row).read :: (userSteps id req old row).write :: rest
      ∧ ∀ step ∈ rest, step.op = .inl (.inl (.inl (.removeMemberships id))) := by
  obtain ⟨_, own, _, rfl, horg⟩ := org_runs h
  obtain ⟨own, rfl, huser⟩ := Program.runs_embed_iff.1 horg
  obtain ⟨_, huser, -⟩ := huser.bind_pure_ok
  obtain ⟨target, old, row, rest, rfl, hrest⟩ := updateUser_runs huser
  refine ⟨target, old, row, _, rfl, fun step hstep => ?_⟩
  simp only [List.mem_map] at hstep
  obtain ⟨_, ⟨_, ⟨own, hmem, rfl⟩, rfl⟩, rfl⟩ := hstep
  exact congrArg (fun o : AccountOp => (.inl (.inl (.inl o)) : AdminStore.Op)) (hrest own hmem)

theorem serve_updateOrganization_runs {req : UpdateOrganizationRequest}
    (h : (AdminRequest.serve ⟨claims, (RowUpdate.organization id req).call⟩).Runs env run (.ok response)) :
    ∃ old row : OrganizationRow,
      run = [(organizationSteps id req old row).read, (organizationSteps id req old row).write] := by
  obtain ⟨own, rfl, horg⟩ := Program.runs_embed_iff.1 h
  obtain ⟨_, horg, -⟩ := horg.bind_pure_ok
  obtain ⟨old, row, rfl⟩ := updateOrganization_runs horg
  exact ⟨old, row, rfl⟩

end Runs

/-! ## Rows that are written -/

section Rows

/-- What one update sets the other does not. -/
theorem field_congr {α : Type} {a b : Option α} {P Q : α → Prop} (h : a = none ∨ b = none)
    (hkept : a = none → ∀ v, P v ↔ Q v) : (∀ v, b = some v → P v) ↔ ∀ v, b = some v → Q v :=
  forall₂_congr fun v hb => hkept (h.resolve_right (by simp [hb])) v

/-- The write leaves what the update sets, and what was read of what another sets. -/
def ReadWrite.Merges (state : AuthState) (steps : ReadWrite) (update other : RowUpdate) : Prop :=
  ∀ s₀ s₁ : AdminWorld, s₀.tenant.Typed → s₁.tenant.Typed → (adminWorld state).accepts s₀ steps.read →
    (adminWorld state).accepts s₁ steps.write → update.CarriedBy (s₁.next state steps.write)
      ∧ (other.CarriedBy (s₁.next state steps.write) ↔ other.CarriedBy s₀)

variable {state : AuthState} {id : Uuid} {other : RowUpdate}

theorem teamSteps_merge {req : UpdateTeamRequest} {old row : Team} (hsplits : (RowUpdate.team id req).Splits other) :
    (teamSteps id req old row).Merges state (.team id req) other := by
  intro s₀ s₁ hs _ hread hwrite
  have hold : s₀.tenant.org.teams.find? id = some old := Eq.symm hread.1
  obtain ⟨⟨stored, hstored, hrow⟩, hbudget, hmax⟩ := hwrite
  obtain ⟨hbudget₀, hmax₀⟩ := hs.teams old (Table.find?_eq_some_iff.1 hold).1
  have hid : row.id = id := (congrArg Team.id hrow).trans (Table.find?_eq_some_iff.1 hstored).2
  have hname : row.name = req.name.getD old.name := congrArg Team.name hrow
  have hnext : (s₁.next state (teamSteps id req old row).write).tenant.org.teams.find? id = some row :=
    Table.find?_replace_of_key hstored hid
  refine ⟨⟨row, hnext, fun name h => ?_, fun budget h => ?_, fun budget h => ?_⟩, ?_⟩
  · rw [hname, h]
    rfl
  · rwa [h] at hbudget
  · rwa [h] at hmax
  · cases other with
    | team id' req' =>
        obtain ⟨rfl, hnames, hbudgets, hmaxes⟩ := hsplits
        have hsame : req'.CarriedBy row ↔ req'.CarriedBy old := by
          refine and_congr (field_congr hnames fun h v => ?_) (and_congr (field_congr hbudgets fun h v => ?_)
            (field_congr hmaxes fun h v => ?_))
          · rw [hname, h]
            rfl
          · rw [h, Option.none_or] at hbudget
            rw [hbudget.eq_given hbudget₀]
          · rw [h, Option.none_or] at hmax
            rw [hmax.eq_given hmax₀]
        exact (RowUpdate.carriedBy_team hnext).trans (hsame.trans (RowUpdate.carriedBy_team hold).symm)
    | _ => exact hsplits.elim

theorem userSteps_merge {req : UpdateUserRequest} {old row : User} (hsplits : (RowUpdate.user id req).Splits other) :
    (userSteps id req old row).Merges state (.user id req) other := by
  intro s₀ s₁ _ _ hread hwrite
  have hold : s₀.tenant.org.accounts.users.find? id = some old := Eq.symm hread.1
  obtain ⟨⟨stored, hstored, hrow⟩, -⟩ := hwrite
  have hid : row.id = id :=
    (congrArg (fun user : User => user.id) hrow).trans (Table.find?_eq_some_iff.1 hstored).2
  have hname : row.name = req.name.or old.name := congrArg (fun user : User => user.name) hrow
  have hrole : row.role = req.role.getD old.role := congrArg (fun user : User => user.role) hrow
  have horg : row.organizationId = req.organizationId.or old.organizationId :=
    congrArg (fun user : User => user.organizationId) hrow
  have hnext : (s₁.next state (userSteps id req old row).write).tenant.org.accounts.users.find? id = some row :=
    Table.find?_replace_of_key hstored hid
  refine ⟨⟨row, hnext, fun name h => ?_, fun role h => ?_, fun organizationId h => ?_⟩, ?_⟩
  · rw [hname, h, Option.some_or]
  · rw [hrole, h, Option.getD_some]
  · rw [horg, h, Option.some_or]
  · cases other with
    | user id' req' =>
        obtain ⟨rfl, hnames, hroles, horgs⟩ := hsplits
        have hsame : req'.CarriedBy row ↔ req'.CarriedBy old := by
          refine and_congr (field_congr hnames fun h v => ?_) (and_congr (field_congr hroles fun h v => ?_)
            (field_congr horgs fun h v => ?_))
          · rw [hname, h, Option.none_or]
          · rw [hrole, h, Option.getD_none]
          · rw [horg, h, Option.none_or]
        exact (RowUpdate.carriedBy_user hnext).trans (hsame.trans (RowUpdate.carriedBy_user hold).symm)
    | _ => exact hsplits.elim

theorem organizationSteps_merge {req : UpdateOrganizationRequest} {old row : OrganizationRow}
    (hsplits : (RowUpdate.organization id req).Splits other) :
    (organizationSteps id req old row).Merges state (.organization id req) other := by
  intro s₀ s₁ _ _ hread hwrite
  have hold : s₀.organizations.find? id = some old := Eq.symm hread
  obtain ⟨hfound, hrow⟩ := hwrite
  obtain ⟨stored, hstored⟩ := Option.isSome_iff_exists.1 hfound
  have hid : row.id = id := congrArg (fun org : OrganizationRow => org.id) hrow
  have hname : row.name = req.name.getD old.name := congrArg OrganizationRow.name hrow
  have hrequests : row.rateLimitRequestsPerMinute
      = req.rateLimitRequestsPerMinute.or old.rateLimitRequestsPerMinute :=
    congrArg (fun org : OrganizationRow => org.rateLimitRequestsPerMinute) hrow
  have htokens : row.rateLimitTokensPerMinute = req.rateLimitTokensPerMinute.or old.rateLimitTokensPerMinute :=
    congrArg (fun org : OrganizationRow => org.rateLimitTokensPerMinute) hrow
  have hnext : (s₁.next state (organizationSteps id req old row).write).organizations.find? id = some row :=
    Table.find?_replace_of_key hstored hid
  refine ⟨⟨row, hnext, fun name h => ?_, fun limit h => ?_, fun limit h => ?_⟩, ?_⟩
  · rw [hname, h, Option.getD_some]
  · rw [hrequests, h, Option.some_or]
  · rw [htokens, h, Option.some_or]
  · cases other with
    | organization id' req' =>
        obtain ⟨rfl, hnames, hrequests', htokens'⟩ := hsplits
        have hsame : req'.CarriedBy row ↔ req'.CarriedBy old := by
          refine and_congr (field_congr hnames fun h v => ?_) (and_congr (field_congr hrequests' fun h v => ?_)
            (field_congr htokens' fun h v => ?_))
          · rw [hname, h, Option.getD_none]
          · rw [hrequests, h, Option.none_or]
          · rw [htokens, h, Option.none_or]
        exact (RowUpdate.carriedBy_organization hnext).trans
          (hsame.trans (RowUpdate.carriedBy_organization hold).symm)
    | _ => exact hsplits.elim

end Rows

/-! ## Two updates -/

section Updates

variable {state : AuthState} {updates : Nat → RowUpdate} {claims : Claims} {env : Environment AdminStore}
  {run : List (Step AdminStore)} {response : AdminResponse} {i j : Nat}

/-- The rows of all updates. -/
abbrev carriedBy (updates : Nat → RowUpdate) (i : Nat) (s : AdminWorld) : Prop := (updates i).CarriedBy s

/-- A statement that only reads. -/
theorem leavesRow_of_next {step : Step AdminStore} (hsilent : writesRow step.op = false)
    (hnext : ∀ (s : AdminWorld) (update : RowUpdate), update.CarriedBy (s.next state step) ↔ update.CarriedBy s) :
    LeavesRow (M := adminWorld state) writesRow (carriedBy updates) step :=
  ⟨hsilent, fun s _ k => hnext s (updates k)⟩

theorem leavesRow_team (id : Uuid) (answer : Except PasteurError Team) :
    LeavesRow (M := adminWorld state) writesRow (carriedBy updates) ⟨.inl (.inl (.inr (.getById id))), answer⟩ :=
  leavesRow_of_next rfl fun s update => by cases update <;> exact Iff.rfl

theorem leavesRow_user (id : Uuid) (answer : Except PasteurError User) :
    LeavesRow (M := adminWorld state) writesRow (carriedBy updates)
      ⟨.inl (.inl (.inl (.getUserById id))), answer⟩ :=
  leavesRow_of_next rfl fun s update => by cases update <;> exact Iff.rfl

theorem leavesRow_memberships {id : Uuid} {step : Step AdminStore}
    (h : step.op = .inl (.inl (.inl (.removeMemberships id)))) :
    LeavesRow (M := adminWorld state) writesRow (carriedBy updates) step := by
  obtain ⟨o, answer⟩ := step
  obtain rfl : o = .inl (.inl (.inl (.removeMemberships id))) := h
  exact leavesRow_of_next rfl fun s update => by cases update <;> exact Iff.rfl

theorem leavesRow_organization (id : Uuid) (answer : Except PasteurError OrganizationRow) :
    LeavesRow (M := adminWorld state) writesRow (carriedBy updates) ⟨.inr (.getById id), answer⟩ :=
  leavesRow_of_next rfl fun s update => by cases update <;> exact Iff.rfl

/-- An update that succeeds reads its row and writes it once. -/
theorem RowUpdate.updateRun (hrun : (AdminRequest.serve ⟨claims, (updates i).call⟩).Runs env run (.ok response))
    (hsplits : (updates i).Splits (updates j)) : UpdateRun (M := adminWorld state) readsRow writesRow
      (fun s : AdminWorld => s.tenant.Typed) (carriedBy updates) i j run := by
  unfold carriedBy
  generalize hi : updates i = update at hrun hsplits
  cases update with
  | team id req =>
      obtain ⟨old, row, rfl⟩ := serve_updateTeam_runs hrun
      refine ⟨[], _, _, [], rfl, rfl, rfl, ?_, by rw [hi]; exact teamSteps_merge hsplits⟩
      intro step hstep
      rw [List.mem_singleton.1 hstep]
      exact leavesRow_team id (.ok old)
  | user id req =>
      obtain ⟨target, old, row, rest, rfl, hrest⟩ := serve_updateUser_runs hrun
      refine ⟨[_], _, _, rest, rfl, rfl, rfl, ?_, by rw [hi]; exact userSteps_merge hsplits⟩
      intro step hstep
      rcases List.mem_cons.1 hstep with rfl | hstep
      · exact leavesRow_user id (.ok target)
      · rcases List.mem_cons.1 hstep with rfl | hstep
        · exact leavesRow_user id (.ok old)
        · exact leavesRow_memberships (hrest step hstep)
  | organization id req =>
      obtain ⟨old, row, rfl⟩ := serve_updateOrganization_runs hrun
      refine ⟨[], _, _, [], rfl, rfl, rfl, ?_, by rw [hi]; exact organizationSteps_merge hsplits⟩
      intro step hstep
      rw [List.mem_singleton.1 hstep]
      exact leavesRow_organization id (.ok old)

theorem AdminWorld.typed_next {s : AdminWorld} {step : Step AdminStore} (hs : s.tenant.Typed)
    (haccepts : s.answers state step.op step.answer) : (s.next state step).tenant.Typed := by
  obtain ⟨o | o, answer⟩ := step
  · have hnext : (s.tenant.next state ⟨o, answer⟩).Typed := hs.next haccepts
    exact hnext
  · cases o with
    | delete id =>
        cases answer with
        | error e => exact hs
        | ok done => exact ⟨hs.teams, Table.forall_delete hs.endUsers⟩
    | getById id => exact hs
    | list => exact hs
    | createWithLimits name requests tokens => cases answer <;> exact hs
    | updateWithLimits id name requests tokens => cases answer <;> exact hs

/-- Two updates of a row that succeed at the same time, and set no field in common, are both in the row in the end
    exactly when neither writes over what the other has set since it read the row, unless with the same value. -/
theorem updates_carried_iff (state : AuthState) (s : AdminWorld) (hs : s.tenant.Typed) (claims : Nat → Claims)
    (updates : Nat → RowUpdate) (hsplits : (updates 0).Splits (updates 1)) (env : Environment AdminStore)
    (tr : List (Nat × Step AdminStore)) (hboth : ∀ entry ∈ tr, entry.1 = 0 ∨ entry.1 = 1)
    (hsafe : (adminWorld state).Safe s (sharedSteps tr)) (first second : AdminResponse)
    (hfirst : Returns env AdminRequest.serve (fun i => ⟨claims i, (updates i).call⟩) tr 0 (.ok first))
    (hsecond : Returns env AdminRequest.serve (fun i => ⟨claims i, (updates i).call⟩) tr 1 (.ok second)) :
    ((updates 0).CarriedBy ((adminWorld state).after s (sharedSteps tr))
        ∧ (updates 1).CarriedBy ((adminWorld state).after s (sharedSteps tr)))
      ↔ (Overwritten readsRow writesRow tr 0 1 → (updates 0).CarriedBy s)
        ∧ (Overwritten readsRow writesRow tr 1 0 → (updates 1).CarriedBy s) := by
  have hupdates : ReadThenWrite (M := adminWorld state) readsRow writesRow (fun s : AdminWorld => s.tenant.Typed)
      (carriedBy updates) 0 1 s tr :=
    ⟨by decide, hs, fun _ _ hs haccepts => AdminWorld.typed_next hs haccepts, hsafe, hboth,
      RowUpdate.updateRun hfirst hsplits, RowUpdate.updateRun hsecond hsplits.symm⟩
  exact hupdates.carried_iff

end Updates

/-! ## A name that is lost -/

/-- The sample tenant, without a row of an organization. -/
def adminSample : AdminWorld := ⟨budgetedTenant, .empty⟩

/-- A super admin of organization 10. -/
def rootClaims : Claims := ⟨1, 10, "super_admin"⟩

/-- The team before the updates. -/
def coreTeam : Team := ⟨5, 10, "core", none, none, 0⟩

/-- The first request renames the team, the second gives it a budget. -/
def coreUpdates : Nat → RowUpdate
  | 0 => .team 5 ⟨some "platform", none, none⟩
  | _ => .team 5 ⟨none, some (.ofInt32 6), none⟩

/-- The update that renames the team it read. -/
def renameSteps (old : Team) : ReadWrite :=
  teamSteps 5 ⟨some "platform", none, none⟩ old { old with name := "platform" }

/-- The update that gives the team it read a budget. -/
def budgetSteps (old : Team) : ReadWrite :=
  teamSteps 5 ⟨none, some (.ofInt32 6), none⟩ old { old with budgetUsd := some (.ofInt32 6) }

theorem coreUpdate_runs (req : UpdateTeamRequest) (old row : Team) :
    (AdminRequest.serve ⟨rootClaims, (RowUpdate.team 5 req).call⟩).Runs anyAnswer
      [(teamSteps 5 req old row).read, (teamSteps 5 req old row).write] (.ok (.tenant (.org (.team row)))) :=
  .op trivial (.op trivial (.pure _))

/-- The second request starts when the first is done. -/
def serialUpdates : List (Nat × Step AdminStore) :=
  [(0, (renameSteps coreTeam).read), (0, (renameSteps coreTeam).write),
    (1, (budgetSteps { coreTeam with name := "platform" }).read),
    (1, (budgetSteps { coreTeam with name := "platform" }).write)]

/-- Both requests read before one of them writes. -/
def racingUpdates : List (Nat × Step AdminStore) :=
  [(0, (renameSteps coreTeam).read), (1, (budgetSteps coreTeam).read), (0, (renameSteps coreTeam).write),
    (1, (budgetSteps coreTeam).write)]

theorem sixDollars_stored : Stores (some (.ofInt32 6)) (some (.ofInt32 6)) := by decide +kernel

theorem serialUpdates_safe : (adminWorld sampleAuthState).Safe adminSample (sharedSteps serialUpdates) := by
  exact ⟨⟨rfl, trivial⟩, ⟨⟨coreTeam, rfl, rfl⟩, rfl, rfl⟩, ⟨rfl, trivial⟩,
    ⟨⟨_, rfl, rfl⟩, sixDollars_stored, rfl⟩, trivial⟩

theorem racingUpdates_safe : (adminWorld sampleAuthState).Safe adminSample (sharedSteps racingUpdates) := by
  exact ⟨⟨rfl, trivial⟩, ⟨rfl, trivial⟩, ⟨⟨coreTeam, rfl, rfl⟩, rfl, rfl⟩,
    ⟨⟨_, rfl, rfl⟩, sixDollars_stored, rfl⟩, trivial⟩

theorem serialUpdates_reads :
    ¬ Overwritten readsRow writesRow serialUpdates 0 1 ∧ ¬ Overwritten readsRow writesRow serialUpdates 1 0 := by
  constructor
  · rintro ⟨before, write, middle, write', after, htr, hwrite, hwrite', hunread⟩
    rcases before with _ | ⟨a, _ | ⟨b, before⟩⟩
    · obtain ⟨hfirst, -⟩ := List.cons.inj htr
      obtain rfl := (Prod.mk.inj hfirst).2
      cases hwrite
    · obtain ⟨-, hrest⟩ := List.cons.inj (List.cons.inj htr).2
      rcases middle with _ | ⟨c, middle⟩
      · obtain rfl := (Prod.mk.inj (List.cons.inj hrest).1).2
        cases hwrite'
      · obtain rfl := (List.cons.inj hrest).1
        cases hunread _ List.mem_cons_self rfl
    · have hrest := (List.cons.inj (List.cons.inj htr).2).2
      have hmem : ((0, write) : Nat × Step AdminStore) ∈ serialUpdates.drop 2 := by
        rw [show serialUpdates.drop 2 = _ from hrest]
        simp
      simp [serialUpdates] at hmem
  · rintro ⟨before, write, middle, write', after, htr, -⟩
    have hsorted : serialUpdates.Pairwise fun a b => a.1 ≤ b.1 := by simp [serialUpdates]
    rw [htr, List.pairwise_append, List.pairwise_cons] at hsorted
    exact absurd (show 1 ≤ 0 from hsorted.2.1.1 (0, write') (by simp)) (by decide)

/-- One after the other, both updates are in the row. -/
theorem updates_carried_serial :
    (coreUpdates 0).CarriedBy ((adminWorld sampleAuthState).after adminSample (sharedSteps serialUpdates))
      ∧ (coreUpdates 1).CarriedBy ((adminWorld sampleAuthState).after adminSample (sharedSteps serialUpdates)) := by
  refine (updates_carried_iff sampleAuthState adminSample budgetedTenant_typed (fun _ => rootClaims) coreUpdates
    ⟨rfl, .inr rfl, .inl rfl, .inl rfl⟩ anyAnswer serialUpdates (by decide) serialUpdates_safe _ _
    (coreUpdate_runs ⟨some "platform", none, none⟩ coreTeam _)
    (coreUpdate_runs ⟨none, some (.ofInt32 6), none⟩ { coreTeam with name := "platform" } _)).2 ⟨?_, ?_⟩
  · exact fun h => absurd h serialUpdates_reads.1
  · exact fun h => absurd h serialUpdates_reads.2

/-- The rename is lost. -/
theorem updates_lost :
    ¬ ∀ (s : AdminWorld), s.tenant.Typed → ∀ (claims : Nat → Claims) (updates : Nat → RowUpdate),
      (updates 0).Splits (updates 1) → ∀ tr : List (Nat × Step AdminStore),
      (∀ entry ∈ tr, entry.1 = 0 ∨ entry.1 = 1) → (adminWorld sampleAuthState).Safe s (sharedSteps tr) →
      ∀ first second : AdminResponse,
      Returns anyAnswer AdminRequest.serve (fun i => ⟨claims i, (updates i).call⟩) tr 0 (.ok first) →
      Returns anyAnswer AdminRequest.serve (fun i => ⟨claims i, (updates i).call⟩) tr 1 (.ok second) →
      (updates 0).CarriedBy ((adminWorld sampleAuthState).after s (sharedSteps tr))
        ∧ (updates 1).CarriedBy ((adminWorld sampleAuthState).after s (sharedSteps tr)) := by
  intro h
  obtain ⟨⟨row, hrow, hname, -⟩, -⟩ := h adminSample budgetedTenant_typed (fun _ => rootClaims) coreUpdates
    ⟨rfl, .inr rfl, .inl rfl, .inl rfl⟩ racingUpdates (by decide) racingUpdates_safe _ _
    (coreUpdate_runs ⟨some "platform", none, none⟩ coreTeam _)
    (coreUpdate_runs ⟨none, some (.ofInt32 6), none⟩ coreTeam _)
  obtain rfl : row = { coreTeam with budgetUsd := some (.ofInt32 6) } := (Option.some.inj hrow).symm
  exact absurd (hname "platform" rfl) (by decide)

end Godwit
