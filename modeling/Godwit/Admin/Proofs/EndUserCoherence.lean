import Godwit.Admin.Proofs.PartialUpdates

set_option autoImplicit false

/-! # The end user that a caller has created

A super admin names the organization of a new end user. The requests that follow look for it in the
organization of the caller, whatever the role, so they reach the row exactly if the two are the same. -/

namespace Godwit

/-- The requests about one end user, by the user's id. -/
inductive EndUserCall where
  | get
  | update (req : UpdateEndUserRequest)
  | delete
  deriving DecidableEq, Repr

/-- The call for a user, as the administration receives it. -/
def EndUserCall.request (userId : Uuid) : EndUserCall → TenantCall
  | .get => .getEndUser userId
  | .update req => .updateEndUser userId req
  | .delete => .deleteEndUser userId

/-- A row of the first state has become `left` in the second (it is gone where that is `none`), and all else is
    as it was. -/
structure ActsOnly (row : EndUser) (left : Option EndUser) (s s' : TenantWorld) : Prop where
  present : row ∈ s.endUsers
  others : ∀ other, other ∈ s'.endUsers ↔ (other ∈ s.endUsers ∧ other ≠ row) ∨ left = some other
  org : s'.org = s.org

/-- A request that succeeds acts on this row and on no other; one whose statement fails acts on none. -/
def EndUserCall.ActsOn (row : EndUser) (s s' : TenantWorld) : EndUserCall → Except ApiError TenantResponse → Prop
  | .get, .ok response => response = .endUser row ∧ ActsOnly row (some row) s s'
  | .update req, .ok response => ∃ updated, response = .endUser updated ∧ ActsOnly row (some updated) s s'
    ∧ updated = { row with
        budgetUsd := updated.budgetUsd
        maxBudgetUsd := updated.maxBudgetUsd
        updatedAt := updated.updatedAt }
    ∧ Stores req.budgetUsd updated.budgetUsd ∧ Stores req.maxBudgetUsd updated.maxBudgetUsd
  | .delete, .ok response => response = .deleted ∧ ActsOnly row none s s'
  | _, .error e => (∃ msg, e = .core (.database msg)) ∧ s' = s

/-- What every request of this caller about the user of a row does is done to that row. -/
def ReachesOnly (state : AuthState) (s : TenantWorld) (claims : Claims) (row : EndUser) : Prop :=
  ∀ (call : EndUserCall) (env : Environment TenantStore),
    (tenantWorld state).Guarantees env s (TenantRequest.serve ⟨claims, call.request row.userId⟩)
      fun out s' => call.ActsOn row s s' out

/-! ## Statements on one row -/

section Rows

variable {state : AuthState} {s : TenantWorld} {claims : Claims} {row : EndUser}

theorem ActsOnly.refl (h : row ∈ s.endUsers) : ActsOnly row (some row) s s where
  present := h
  others other := by
    by_cases hother : other = row
    · simp [hother, h]
    · simp [hother, Ne.symm hother]
  org := rfl

theorem ActsOnly.replace (h : row ∈ s.endUsers) {updated : EndUser}
    (hkey : (updated.userId, updated.organizationId) = (row.userId, row.organizationId)) :
    ActsOnly row (some updated) s { s with endUsers := s.endUsers.replace updated } where
  present := h
  others other := by
    have hsame : other ∈ s.endUsers →
        ((other.userId, other.organizationId) ≠ (updated.userId, updated.organizationId) ↔ other ≠ row) := by
      intro hother
      rw [hkey]
      exact not_congr ⟨fun hkeys => Table.eq_of_key hother h hkeys, fun heq => by rw [heq]⟩
    rw [Table.mem_replace, Option.some.injEq]
    constructor
    · rintro (⟨hother, hne⟩ | ⟨rfl, -⟩)
      · exact .inl ⟨hother, (hsame hother).1 hne⟩
      · exact .inr rfl
    · rintro (⟨hother, hne⟩ | rfl)
      · exact .inl ⟨hother, (hsame hother).2 hne⟩
      · exact .inr ⟨rfl, row, h, hkey.symm⟩
  org := rfl

theorem ActsOnly.delete (h : row ∈ s.endUsers) :
    ActsOnly row none s { s with
      endUsers := s.endUsers.delete fun other =>
        other.organizationId = row.organizationId ∧ other.userId = row.userId } where
  present := h
  others other := by
    rw [Table.mem_delete]
    simp only [decide_eq_false_iff_not, reduceCtorEq, or_false]
    refine and_congr_right fun hother => not_congr ⟨fun hkeys => ?_, fun heq => heq ▸ ⟨rfl, rfl⟩⟩
    exact Table.eq_of_key hother h (Prod.ext hkeys.2 hkeys.1)
  org := rfl

variable {env : Environment EndUserStore}

/-- The row that a statement asks for is there. -/
def EndUserOp.Finds (s : TenantWorld) : EndUserOp → Prop
  | .getByUser organizationId userId | .updateBudgets organizationId userId _ _ =>
    s.endUsers.find? (userId, organizationId) ≠ none
  | .create _ _ _ _ | .listByOrganization _ | .delete _ _ => True

/-- A statement whose row is there fails in the database only. -/
theorem EndUserOp.Finds.fails {o : EndUserOp} (hfinds : o.Finds s) {e : PasteurError}
    (h : (endUserTenant state).accepts s ⟨o, .error e⟩) : ∃ msg, ApiError.core e = .core (.database msg) := by
  cases e with
  | database msg => exact ⟨msg, rfl⟩
  | notFound =>
      cases o with
      | getByUser organizationId userId => exact absurd (Eq.symm h) hfinds
      | updateBudgets organizationId userId budgetUsd maxBudgetUsd => exact absurd h hfinds
      | _ => cases h
  | _ => cases o <;> cases h

/-- A caller who may manage users. -/
def Manages (claims : Claims) (role : Role) : Prop := Role.fromStr claims.role = some role ∧ role.canManageUsers = true

theorem Manages.require_bind {role : Role} (h : Manages claims role) {α : Type} (f : Role → EndUserApp α) :
    requireManageEndUsers claims >>= f = f role := by
  have hrole : requireManageEndUsers claims = .pure role := by
    unfold requireManageEndUsers
    rw [h.1]
    exact if_pos h.2
  rw [hrole]
  rfl

/-- The read before a change finds the row, and the caller may see it. -/
theorem ownEndUser_reads (role : Role) (hfound : s.endUsers.find? (row.userId, claims.organizationId) = some row) :
    (endUserTenant state).Guarantees env s (ownEndUser role claims row.userId)
      fun out s' => s' = s ∧ ∀ e, out = .error e → ∃ msg, e = .core (.database msg) := by
  have hfinds : EndUserOp.Finds s (.getByUser claims.organizationId row.userId) := by simp [EndUserOp.Finds, hfound]
  refine askEndUsers_bind (fun e haccepts => ⟨rfl, fun _ he => ?_⟩) fun (endUser : EndUser) haccepts => ?_
  · cases he
    exact hfinds.fails haccepts
  · have hread : some endUser = s.endUsers.find? (row.userId, claims.organizationId) := haccepts
    have horg : endUser.organizationId = claims.organizationId :=
      congrArg Prod.snd (Table.find?_eq_some_iff.1 hread.symm).2
    rw [if_neg fun h => h.2 horg]
    exact .pure ⟨rfl, fun _ he => by cases he⟩

theorem getEndUser_acts {role : Role} (hrole : Manages claims role)
    (hfound : s.endUsers.find? (row.userId, claims.organizationId) = some row) :
    (endUserTenant state).Guarantees env s (tenantRespond (getEndUser claims row.userId) .endUser)
      fun out s' => EndUserCall.get.ActsOn row s s' out := by
  have hin := (Table.find?_eq_some_iff.1 hfound).1
  have hfinds : EndUserOp.Finds s (.getByUser claims.organizationId row.userId) := by simp [EndUserOp.Finds, hfound]
  unfold getEndUser
  rw [hrole.require_bind]
  refine askEndUsers_bind (fun e haccepts => ⟨?_, rfl⟩) fun (endUser : EndUser) haccepts => ?_
  · exact hfinds.fails haccepts
  · have hread : some endUser = s.endUsers.find? (row.userId, claims.organizationId) := haccepts
    rw [hfound] at hread
    cases hread
    exact .pure ⟨rfl, .refl hin⟩

theorem updateEndUser_acts {role : Role} (hrole : Manages claims role) (req : UpdateEndUserRequest)
    (hfound : s.endUsers.find? (row.userId, claims.organizationId) = some row) :
    (endUserTenant state).Guarantees env s (tenantRespond (updateEndUser claims row.userId req) .endUser)
      fun out s' => (EndUserCall.update req).ActsOn row s s' out := by
  have hin := (Table.find?_eq_some_iff.1 hfound).1
  have horg : row.organizationId = claims.organizationId := congrArg Prod.snd (Table.find?_eq_some_iff.1 hfound).2
  unfold updateEndUser tenantRespond
  rw [hrole.require_bind]
  refine .bind (.bind (ownEndUser_reads role hfound) (fun _ s' hsame => ?_) fun e s' h => ?_)
    (Q := fun out s' => match out with
      | .ok updated => (EndUserCall.update req).ActsOn row s s' (.ok (.endUser updated))
      | .error e => (EndUserCall.update req).ActsOn row s s' (.error e)) (fun updated s' h => .pure h) fun e s' h => h
  · obtain rfl : s' = s := hsame.1
    refine .perform fun answer _ haccepts => ?_
    cases answer with
    | error e =>
        have hfinds : EndUserOp.Finds s'
            (.updateBudgets claims.organizationId row.userId req.budgetUsd req.maxBudgetUsd) := by
          simp [EndUserOp.Finds, hfound]
        exact .throw ⟨hfinds.fails haccepts, rfl⟩
    | ok updated =>
        obtain ⟨old, hold, hrow, hbudget, hmax⟩ := haccepts
        have hold : s'.endUsers.find? (row.userId, claims.organizationId) = some old := hold
        rw [hfound] at hold
        cases hold
        have hkey := congrArg (fun row : EndUser => (row.userId, row.organizationId)) hrow
        exact .pure ⟨updated, rfl, .replace hin hkey, hrow, hbudget, hmax⟩
  · exact ⟨h.2 e rfl, h.1⟩

theorem deleteEndUser_acts {role : Role} (hrole : Manages claims role)
    (hfound : s.endUsers.find? (row.userId, claims.organizationId) = some row) :
    (endUserTenant state).Guarantees env s (tenantRespond (deleteEndUser claims row.userId) fun _ => .deleted)
      fun out s' => EndUserCall.delete.ActsOn row s s' out := by
  have hin := (Table.find?_eq_some_iff.1 hfound).1
  have horg : row.organizationId = claims.organizationId := congrArg Prod.snd (Table.find?_eq_some_iff.1 hfound).2
  unfold deleteEndUser tenantRespond
  rw [hrole.require_bind]
  refine .bind (.bind (ownEndUser_reads role hfound) (fun _ s' hsame => ?_) fun e s' h => ?_)
    (Q := fun out s' => match out with
      | .ok _ => EndUserCall.delete.ActsOn row s s' (.ok .deleted)
      | .error e => EndUserCall.delete.ActsOn row s s' (.error e)) (fun _ s' h => .pure h) fun e s' h => h
  · obtain rfl : s' = s := hsame.1
    refine .perform fun answer _ haccepts => ?_
    cases answer with
    | error e =>
        have hfinds : EndUserOp.Finds s' (.delete claims.organizationId row.userId) := trivial
        exact .throw ⟨hfinds.fails haccepts, rfl⟩
    | ok done =>
        rw [← horg]
        exact .pure ⟨rfl, .delete hin⟩
  · exact ⟨h.2 e rfl, h.1⟩

end Rows

/-! ## After the row was created -/

section Created

variable {state : AuthState} {s : TenantWorld} {claims : Claims} {req : CreateEndUserRequest} {row : EndUser}

/-- The organization of the row is the caller's own. -/
def CreateEndUserRequest.InOwnOrganization (claims : Claims) (req : CreateEndUserRequest) : Prop :=
  Role.fromStr claims.role = some .superAdmin → req.organizationId = some claims.organizationId

theorem newTeamOrganization_own {role : Role} {organizationId : Uuid} (hrole : Role.fromStr claims.role = some role)
    (h : newTeamOrganization role claims req.organizationId = .ok organizationId) :
    organizationId = claims.organizationId ↔ req.InOwnOrganization claims := by
  unfold newTeamOrganization at h
  split_ifs at h with hsuper
  · subst hsuper
    cases horg : req.organizationId with
    | none =>
        rw [horg] at h
        cases h
    | some given =>
        rw [horg] at h
        cases h
        simp [CreateEndUserRequest.InOwnOrganization, hrole, horg]
  · cases h
    refine iff_of_true rfl fun hsuper' => ?_
    rw [hrole] at hsuper'
    exact absurd (Option.some.inj hsuper') hsuper

theorem createEndUser_creates {env : Environment EndUserStore} :
    (endUserTenant state).Guarantees env s (createEndUser claims req) fun out s' => ∀ row, out = .ok row →
      s'.endUsers.find? (row.userId, row.organizationId) = some row ∧ (∃ role, Manages claims role)
        ∧ (row.organizationId = claims.organizationId ↔ req.InOwnOrganization claims) := by
  have hfails : ∀ e : ApiError, ∀ s' : TenantWorld, ∀ row : EndUser, (.error e : Except ApiError EndUser) = .ok row →
      s'.endUsers.find? (row.userId, row.organizationId) = some row ∧ (∃ role, Manages claims role)
        ∧ (row.organizationId = claims.organizationId ↔ req.InOwnOrganization claims) := fun _ _ _ h => by cases h
  cases hrole : Role.fromStr claims.role with
  | none =>
      unfold createEndUser requireManageEndUsers
      rw [hrole]
      exact .throw (hfails _ _)
  | some role =>
      by_cases hmanages : role.canManageUsers = true
      · have hcaller : Manages claims role := ⟨hrole, hmanages⟩
        unfold createEndUser
        rw [hcaller.require_bind]
        refine .ofExcept_bind (fun e _ => hfails e _) fun organizationId horganization => .perform fun created _ h => ?_
        cases created with
        | error e => exact .throw (hfails _ _)
        | ok row =>
            obtain ⟨hfresh, -, hrow, -⟩ := h
            have huser : EndUser.userId row = req.userId := congrArg EndUser.userId hrow
            have horg : EndUser.organizationId row = organizationId := congrArg EndUser.organizationId hrow
            refine .pure fun _ he => ?_
            cases he
            refine ⟨Table.find?_eq_some_iff.2 ⟨(Table.mem_insert_of_fresh ?_).2 (.inr rfl), rfl⟩, ⟨role, hcaller⟩, ?_⟩
            · rw [huser, horg]
              exact hfresh
            · rw [horg]
              exact newTeamOrganization_own hrole horganization
      · unfold createEndUser requireManageEndUsers
        rw [hrole]
        dsimp only
        rw [if_neg hmanages]
        exact .throw (hfails _ _)

/-- The requests reach the row exactly if it is in the caller's organization. -/
theorem reachesOnly_iff (hrole : ∃ role, Manages claims role)
    (hrow : s.endUsers.find? (row.userId, row.organizationId) = some row) :
    ReachesOnly state s claims row ↔ row.organizationId = claims.organizationId := by
  obtain ⟨role, hrole⟩ := hrole
  constructor
  · intro h
    have hget : ∀ answer : Except PasteurError EndUser,
        (endUserTenant state).accepts s ⟨.getByUser claims.organizationId row.userId, answer⟩ →
        EndUserCall.get.ActsOn row s s ((answer.mapError ApiError.core).map .endUser) := by
      intro answer haccepts
      refine h .get anyAnswer [⟨.inr (.getByUser claims.organizationId row.userId), answer⟩] _ ?_ ⟨haccepts, trivial⟩
      change ((tenantRespond (getEndUser claims row.userId) .endUser).embed .right).Runs _ _ _
      unfold tenantRespond getEndUser
      rw [hrole.require_bind]
      cases answer with
      | error e => exact .op trivial (.throw _)
      | ok endUser => exact .op trivial (.pure _)
    cases hfound : s.endUsers.find? (row.userId, claims.organizationId) with
    | none =>
        obtain ⟨⟨msg, hmsg⟩, -⟩ := hget (.error .notFound) hfound.symm
        cases hmsg
    | some other =>
        obtain ⟨hsame, -⟩ := hget (.ok other) hfound.symm
        cases hsame
        exact congrArg Prod.snd (Table.find?_eq_some_iff.1 hfound).2
  · intro horg call env
    rw [horg] at hrow
    cases call with
    | get => exact .embed (getEndUser_acts hrole hrow)
    | update req => exact .embed (updateEndUser_acts hrole req hrow)
    | delete => exact .embed (deleteEndUser_acts hrole hrow)

end Created

/-- What a caller does after a successful creation is done to the new row and to no other, exactly if the caller
    is no super admin or has named the own organization. -/
theorem createEndUser_reachesOnly_iff (state : AuthState) (s : TenantWorld) (claims : Claims)
    (req : CreateEndUserRequest) (env : Environment TenantStore) (tr : List (Step TenantStore)) (row : EndUser)
    (hrun : (TenantRequest.serve ⟨claims, .createEndUser req⟩).Runs env tr (.ok (.endUser row)))
    (hsafe : (tenantWorld state).Safe s tr) :
    ReachesOnly state ((tenantWorld state).after s tr) claims row ↔ req.InOwnOrganization claims := by
  have hcreates : (tenantWorld state).Guarantees env s (TenantRequest.serve ⟨claims, .createEndUser req⟩)
      fun out s' => ∀ row, out = .ok (.endUser row) →
        s'.endUsers.find? (row.userId, row.organizationId) = some row ∧ (∃ role, Manages claims role)
          ∧ (row.organizationId = claims.organizationId ↔ req.InOwnOrganization claims) := by
    refine .embed (.bind createEndUser_creates (fun row _ h => .pure fun _ he => ?_) fun _ _ _ _ he => by cases he)
    cases he
    exact h row rfl
  obtain ⟨hrow, hrole, horg⟩ := hcreates tr _ hrun hsafe row rfl
  exact (reachesOnly_iff hrole hrow).trans horg

/-! ## A row that stays out of reach -/

/-- The super admin of organization 10 creates an end user for the user 3. -/
def newEndUser (organizationId : Uuid) : CreateEndUserRequest := ⟨3, some organizationId, none, none⟩

/-- The row that is created for user 3. -/
def newEndUserRow (organizationId : Uuid) : EndUser := ⟨8, organizationId, 3, none, none, 0, 0⟩

/-- The statement that creates it. -/
def newEndUserSteps (organizationId : Uuid) : List (Step TenantStore) :=
  [⟨.inr (.create organizationId 3 none none), .ok (newEndUserRow organizationId)⟩]

theorem newEndUser_runs (organizationId : Uuid) :
    (TenantRequest.serve ⟨⟨1, 10, "super_admin"⟩, .createEndUser (newEndUser organizationId)⟩).Runs anyAnswer
      (newEndUserSteps organizationId) (.ok (.endUser (newEndUserRow organizationId))) :=
  .op trivial (.pure _)

/-- A tenant without end users. -/
def emptyTenant : TenantWorld := { budgetedTenant with endUsers := .empty }

/-- In the own organization the row is reached. -/
theorem createEndUser_reachesOnly_own :
    ReachesOnly sampleAuthState ((tenantWorld sampleAuthState).after emptyTenant (newEndUserSteps 10))
      ⟨1, 10, "super_admin"⟩ (newEndUserRow 10) :=
  (createEndUser_reachesOnly_iff sampleAuthState emptyTenant ⟨1, 10, "super_admin"⟩ (newEndUser 10) anyAnswer
    (newEndUserSteps 10) (newEndUserRow 10) (newEndUser_runs 10)
    ⟨⟨rfl, rfl, rfl, rfl, rfl⟩, trivial⟩).2 fun _ => rfl

/-- With a row of the same user in the own organization, deleting deletes that one and leaves the new row. -/
theorem deleteEndUser_deletes_other :
    ¬ ∀ (s : TenantWorld) (claims : Claims) (req : CreateEndUserRequest) (tr : List (Step TenantStore)) (row : EndUser),
      (TenantRequest.serve ⟨claims, .createEndUser req⟩).Runs anyAnswer tr (.ok (.endUser row)) →
      (tenantWorld sampleAuthState).Safe s tr →
      ReachesOnly sampleAuthState ((tenantWorld sampleAuthState).after s tr) claims row := by
  intro h
  have hreaches := h budgetedTenant ⟨1, 10, "super_admin"⟩ (newEndUser 11) (newEndUserSteps 11) (newEndUserRow 11)
    (newEndUser_runs 11) ⟨⟨rfl, rfl, rfl, rfl, rfl⟩, trivial⟩
  obtain ⟨-, hdeleted⟩ := hreaches .delete anyAnswer
    [⟨.inr (.getByUser 10 3), .ok budgetedRow⟩, ⟨.inr (.delete 10 3), .ok ()⟩] (.ok .deleted)
    (.op trivial (.op trivial (.pure _))) ⟨rfl, trivial, trivial⟩
  have hkept : newEndUserRow 11 ∈ (((tenantWorld sampleAuthState).after budgetedTenant (newEndUserSteps 11)
      : TenantWorld).endUsers.delete fun row => row.organizationId = 10 ∧ row.userId = 3) := by
    rw [Table.mem_delete]
    exact ⟨List.mem_cons_of_mem _ List.mem_cons_self, rfl⟩
  rcases (hdeleted.others _).1 hkept with ⟨-, hne⟩ | hleft
  · exact hne rfl
  · cases hleft

end Godwit
