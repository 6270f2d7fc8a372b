import Godwit.Admin.EndUsers
import Godwit.Admin.Proofs.Teams

set_option autoImplicit false

/-! # What a partial update leaves alone

A team's update takes what the body does not give from the row that was read, and so does a user's. An end
user's writes both budgets as they come, so one that the body leaves out is lost. -/

namespace Godwit

/-! ## Columns -/

section Columns

variable {d e : Decimal} {given stored : Option Decimal}

theorem roundHalfAway_intCast (k : ℤ) : roundHalfAway k = k := by
  have hfloor : ∀ n : ℤ, ⌊(n : ℚ) + 1 / 2⌋ = n := fun n => by
    rw [Int.floor_intCast_add]
    norm_num
  unfold roundHalfAway
  split_ifs
  · exact hfloor k
  · rw [← Int.cast_neg, hfloor, Int.neg_neg]

/-- What a column has stored it stores again as it is. -/
theorem numeric_stored (h : numeric d = some e) : numeric e = some e := by
  unfold numeric at h
  dsimp only at h
  split_ifs at h with hfits
  have hvalue := Decimal.checked_val h
  have hscaled : roundHalfAway (e.1 * 10 ^ 4) = roundHalfAway (d.1 * 10 ^ 4) := by
    rw [hvalue, div_mul_cancel₀ _ (by norm_num), roundHalfAway_intCast]
  unfold numeric
  rw [hscaled]
  dsimp only
  rw [if_pos hfits, h]

theorem Stores.idem (h : Stores given stored) : Stores stored stored := by
  cases given with
  | none =>
      obtain rfl : stored = none := by simpa [Stores] using h.symm
      rfl
  | some d =>
      cases stored with
      | none => cases h
      | some e => exact congrArg some (numeric_stored (Option.some.inj h))

/-- A value of the column is stored as it is. -/
theorem Stores.eq_given (h : Stores given stored) (hgiven : Stores given given) : stored = given :=
  Option.map_injective (Option.some_injective _) (h.symm.trans hgiven)

@[simp] theorem stores_none_iff : Stores none stored ↔ stored = none := by
  simp [Stores]

end Columns

/-- The budgets of every row are values of their columns. -/
structure TenantWorld.Typed (s : TenantWorld) : Prop where
  teams : ∀ team ∈ s.org.teams, Stores team.budgetUsd team.budgetUsd ∧ Stores team.maxBudgetUsd team.maxBudgetUsd
  endUsers : ∀ row ∈ s.endUsers, Stores row.budgetUsd row.budgetUsd ∧ Stores row.maxBudgetUsd row.maxBudgetUsd

section Typed

variable {state : AuthState} {s : TenantWorld}

theorem TenantWorld.mem_afterOrg {step : Step OrgStore} {row : EndUser} (h : row ∈ s.afterOrg step) :
    row ∈ s.endUsers := by
  unfold TenantWorld.afterOrg at h
  split at h
  · exact (Table.mem_delete.1 h).1
  · exact h

theorem TenantWorld.Typed.of_teams (hs : s.Typed) (step : Step OrgStore)
    (hteams : ∀ team ∈ (s.org.next state step).teams,
      Stores team.budgetUsd team.budgetUsd ∧ Stores team.maxBudgetUsd team.maxBudgetUsd) :
    (s.next state ⟨.inl step.op, step.answer⟩).Typed :=
  ⟨hteams, fun row hin => hs.endUsers row (s.mem_afterOrg hin)⟩

/-- A statement that the world can answer so stores values of the columns. -/
theorem TenantWorld.Typed.next (hs : s.Typed) {step : Step TenantStore}
    (haccepts : s.answers state step.op step.answer) : (s.next state step).Typed := by
  obtain ⟨o | o, answer⟩ := step
  · obtain ⟨-, hbudgets⟩ := haccepts
    refine hs.of_teams ⟨o, answer⟩ ?_
    rcases o with o | o
    · exact hs.teams
    · cases o with
      | create organizationId name budgetUsd maxBudgetUsd =>
          cases answer with
          | error e => exact hs.teams
          | ok row => exact Table.forall_insert hs.teams ⟨hbudgets.1.idem, hbudgets.2.idem⟩
      | updateWithBudget id name budgetUsd maxBudgetUsd =>
          cases answer with
          | error e => exact hs.teams
          | ok row => exact Table.forall_replace hs.teams ⟨hbudgets.1.idem, hbudgets.2.idem⟩
      | delete id =>
          cases answer with
          | error e => exact hs.teams
          | ok done => exact Table.forall_delete hs.teams
      | addMember teamId userId role => cases answer <;> exact hs.teams
      | removeMember teamId userId => cases answer <;> exact hs.teams
      | _ => exact hs.teams
  · cases o with
    | create organizationId userId budgetUsd maxBudgetUsd =>
        cases answer with
        | error e => exact hs
        | ok row =>
            obtain ⟨-, -, -, hbudget, hmax⟩ := haccepts
            exact ⟨hs.teams, Table.forall_insert hs.endUsers ⟨hbudget.idem, hmax.idem⟩⟩
    | updateBudgets organizationId userId budgetUsd maxBudgetUsd =>
        cases answer with
        | error e => exact hs
        | ok row =>
            obtain ⟨-, -, -, hbudget, hmax⟩ := haccepts
            exact ⟨hs.teams, Table.forall_replace hs.endUsers ⟨hbudget.idem, hmax.idem⟩⟩
    | delete organizationId userId =>
        cases answer with
        | error e => exact hs
        | ok done => exact ⟨hs.teams, Table.forall_delete hs.endUsers⟩
    | getByUser organizationId userId => exact hs
    | listByOrganization organizationId => exact hs

theorem TenantWorld.Typed.after (hs : s.Typed) {tr : List (Step TenantStore)}
    (hsafe : (tenantWorld state).Safe s tr) : ((tenantWorld state).after s tr : TenantWorld).Typed := by
  induction tr generalizing s with
  | nil => exact hs
  | cons step rest ih => exact ih (hs.next hsafe.1) hsafe.2

end Typed

/-! ## Kept columns -/

/-- The row of a team after an update with this body. -/
structure UpdateTeamBody.Keeps (body : UpdateTeamBody) (old row : Team) : Prop where
  name : body.name = none → row.name = old.name
  budgetUsd : body.budgetUsd = none → row.budgetUsd = old.budgetUsd
  maxBudgetUsd : body.maxBudgetUsd = none → row.maxBudgetUsd = old.maxBudgetUsd
  others : row = { old with name := row.name, budgetUsd := row.budgetUsd, maxBudgetUsd := row.maxBudgetUsd }

/-- The row of a user after an update with this body. -/
structure UpdateUserBody.Keeps (body : UpdateUserBody) (old row : User) : Prop where
  name : body.name = none → row.name = old.name
  role : body.role = none → row.role = old.role
  organizationId : body.organizationId = none → row.organizationId = old.organizationId
  others : row = { old with name := row.name, role := row.role, organizationId := row.organizationId }

/-- The row of an end user after an update with this body; `updated_at` is set by every update. -/
structure UpdateEndUserBody.Keeps (body : UpdateEndUserBody) (old row : EndUser) : Prop where
  budgetUsd : body.budgetUsd = none → row.budgetUsd = old.budgetUsd
  maxBudgetUsd : body.maxBudgetUsd = none → row.maxBudgetUsd = old.maxBudgetUsd
  others : row = { old with
    budgetUsd := row.budgetUsd
    maxBudgetUsd := row.maxBudgetUsd
    updatedAt := row.updatedAt }

/-- A row that was there is there and has kept what the body leaves out. -/
def PatchCall.KeepsAbsent (claims : Claims) (s s' : TenantWorld) : PatchCall → Prop
  | .team id body => ∃ old row, s.org.teams.find? id = some old ∧ s'.org.teams.find? id = some row ∧ body.Keeps old row
  | .user id body => ∃ old row, s.org.accounts.users.find? id = some old
    ∧ s'.org.accounts.users.find? id = some row ∧ body.Keeps old row
  | .endUser userId body => ∃ old row, s.endUsers.find? (userId, claims.organizationId) = some old
    ∧ s'.endUsers.find? (userId, claims.organizationId) = some row ∧ body.Keeps old row

/-- The body for an end user leaves out a budget that is set. -/
def PatchCall.DropsBudget (claims : Claims) (s : TenantWorld) : PatchCall → Prop
  | .team _ _ | .user _ _ => False
  | .endUser userId body => ∃ old, s.endUsers.find? (userId, claims.organizationId) = some old
    ∧ ((body.budgetUsd = none ∧ old.budgetUsd ≠ none) ∨ (body.maxBudgetUsd = none ∧ old.maxBudgetUsd ≠ none))

/-! ## Handlers -/

section Handlers

variable {state : AuthState} {s : TenantWorld} {claims : Claims}

theorem respond_succeeds {S : Signature} {M : Monitor S} {env : Environment S} {w : M.State}
    {α β : Type} {p : Program S ApiError α} {response : α → β} {P : M.State → Prop}
    (h : M.Guarantees env w p fun out w' => ∀ a, out = .ok a → P w') :
    M.Guarantees env w (p >>= fun a => .pure (response a)) fun out w' => ∀ b, out = .ok b → P w' :=
  .bind h (fun a _ ha => .pure fun _ _ => ha a rfl) fun _ _ _ _ he => by cases he

/-- What a handler on teams does to the world. -/
abbrev teamTenant (state : AuthState) : Monitor TeamStore :=
  Signature.Embedding.right.monitor (Signature.Embedding.left.monitor (tenantWorld state))

/-- What a handler on accounts does to it. -/
abbrev accountTenant (state : AuthState) : Monitor AccountStore :=
  Signature.Embedding.left.monitor (Signature.Embedding.left.monitor (tenantWorld state))

/-- What a handler on end users does to it. -/
abbrev endUserTenant (state : AuthState) : Monitor EndUserStore :=
  Signature.Embedding.right.monitor (tenantWorld state)

theorem requireManageUsers_idle {M : Monitor TeamStore} {env : Environment TeamStore} {w : M.State} :
    M.Guarantees env w (requireManageUsers claims) fun _ w' => w' = w := by
  unfold requireManageUsers
  split
  · exact .throw rfl
  · split_ifs
    · exact .pure rfl
    · exact .throw rfl

theorem updateTeam_keeps (hs : s.Typed) {env : Environment TeamStore} (id : Uuid) (body : UpdateTeamBody) :
    (teamTenant state).Guarantees env s (updateTeam claims id body.request)
      fun out s' => ∀ team, out = .ok team → (PatchCall.team id body).KeepsAbsent claims s s' := by
  have hfails : ∀ e : ApiError, ∀ s' : TenantWorld, ∀ team : Team, (.error e : Except ApiError Team) = .ok team →
      (PatchCall.team id body).KeepsAbsent claims s s' := fun _ _ _ h => by cases h
  refine .bind requireManageUsers_idle (fun role s' hsame => ?_) fun e s' _ => hfails e s'
  obtain rfl : s' = s := hsame
  have hown : (teamTenant state).Guarantees env s' (ownTeam role claims id)
      fun out s'' => s'' = s' ∧ ∀ team, out = .ok team → s'.org.teams.find? id = some team := by
    refine askTeams_bind (fun e _ => ⟨rfl, fun _ h => by cases h⟩) fun (team : Team) hteam => ?_
    have hfound : some team = s'.org.teams.find? id := hteam.1
    split_ifs
    · exact .throw ⟨rfl, fun _ h => by cases h⟩
    · exact .pure ⟨rfl, fun _ h => by cases h; exact hfound.symm⟩
  refine .bind hown (fun old s'' h => ?_) fun e s' _ => hfails e s'
  obtain ⟨rfl, hold⟩ := h
  have hold := hold old rfl
  obtain ⟨hbudget, hmax⟩ := hs.teams old (Table.find?_eq_some_iff.1 hold).1
  refine .perform fun updated _ haccepts => ?_
  cases updated with
  | error e => exact .throw (hfails _ _)
  | ok row =>
      obtain ⟨⟨old', hold', hrow⟩, hbudget', hmax'⟩ := haccepts
      have hsame : s''.org.teams.find? id = some old' := hold'
      rw [hold] at hsame
      cases hsame
      have hid : Team.id row = id := (congrArg Team.id hrow).trans (Table.find?_eq_some_iff.1 hold).2
      refine .pure fun _ _ => ⟨old, row, hold, Table.find?_replace_of_key hold hid, fun hname => ?_,
        fun hbody => ?_, fun hbody => ?_, ?_⟩
      · have hkept : Team.name row = body.name.join.getD old.name := congrArg Team.name hrow
        rw [hkept, hname]
        rfl
      · -- what is written is what was read
        rw [UpdateTeamBody.request, hbody] at hbudget'
        exact hbudget'.eq_given hbudget
      · rw [UpdateTeamBody.request, hbody] at hmax'
        exact hmax'.eq_given hmax
      · have hname : Team.name row = body.name.join.getD old.name := congrArg Team.name hrow
        rw [hname]
        exact hrow

theorem updateUser_keeps {env : Environment AccountStore} (id : Uuid) (body : UpdateUserBody) :
    (accountTenant state).Guarantees env s (updateUser claims id body.request)
      fun out s' => ∀ user, out = .ok user → (PatchCall.user id body).KeepsAbsent claims s s' := by
  have hfails : ∀ e : ApiError, ∀ s' : TenantWorld, ∀ user : UserRecord,
      (.error e : Except ApiError UserRecord) = .ok user → (PatchCall.user id body).KeepsAbsent claims s s' :=
    fun _ _ _ h => by cases h
  refine .ofExcept_bind (fun e _ => hfails e _) fun role _ => .ofExcept_bind (fun e _ => hfails e _) fun _ _ => ?_
  refine .perform fun answer _ _ => orCoreError_bind (fun e _ => hfails _ _) fun target htarget => ?_
  subst htarget
  refine .ofExcept_bind (fun e _ => hfails e _) fun _ _ => .ofExcept_bind (fun e _ => hfails e _) fun _ _ => ?_
  refine .ofExcept_bind (fun e _ => hfails e _) fun _ _ => .ofExcept_bind (fun e _ => hfails e _) fun _ _ => ?_
  have hupdated : (accountTenant state).Guarantees env s
      (updateUserRow id body.request.name body.request.role body.request.organizationId)
      fun out s' => ∀ user, out = .ok user → (PatchCall.user id body).KeepsAbsent claims s s' := by
    refine .perform fun answer _ haccepts => orCoreError_bind (fun e _ _ h => by cases h) fun current hcurrent => ?_
    subst hcurrent
    have hold : some current = s.org.accounts.users.find? id := haccepts.1
    refine .perform fun updated _ haccepts => ?_
    cases updated with
    | error e => exact .throw fun _ h => by cases h
    | ok row =>
        obtain ⟨⟨old, hfound, hrow⟩, -⟩ := haccepts
        have hsame : s.org.accounts.users.find? id = some old := hfound
        rw [← hold] at hsame
        cases hsame
        have hid : row.id = id := (congrArg (fun user : User => user.id) hrow).trans
          (Table.find?_eq_some_iff.1 hold.symm).2
        refine .pure fun _ _ => ⟨current, row, hold.symm, Table.find?_replace_of_key hold.symm hid,
          fun hname => ?_, fun hrole => ?_, fun horg => ?_, ?_⟩
        · rw [hrow, UpdateUserBody.request, hname]
          rfl
        · rw [hrow, UpdateUserBody.request, hrole]
          rfl
        · rw [hrow, UpdateUserBody.request, horg]
          rfl
        · rw [hrow]
  refine .bind hupdated (fun updated s' hkept => ?_) fun e s' _ => hfails e s'
  have hkept := hkept updated rfl
  -- the memberships of a user who is moved are no columns of the row
  split
  · refine .perform fun executed _ _ => orCoreError_bind (fun _ _ => hfails _ _) fun _ _ => ?_
    cases executed <;> exact .pure fun _ _ => hkept
  · exact .pure fun _ _ => hkept

theorem requireManageEndUsers_idle {M : Monitor EndUserStore} {env : Environment EndUserStore} {w : M.State} :
    M.Guarantees env w (requireManageEndUsers claims) fun _ w' => w' = w := by
  unfold requireManageEndUsers
  split
  · exact .throw rfl
  · split_ifs
    · exact .pure rfl
    · exact .throw rfl

theorem askEndUsers_bind {M : Monitor EndUserStore} {env : Environment EndUserStore} {w : M.State} {o : EndUserOp}
    {β : Type} {f : o.Row → EndUserApp β} {Q : Except ApiError β → M.State → Prop}
    (herror : ∀ e, M.accepts w ⟨o, .error e⟩ → Q (.error (.core e)) (M.next w ⟨o, .error e⟩))
    (hf : ∀ row, M.accepts w ⟨o, .ok row⟩ → M.Guarantees env (M.next w ⟨o, .ok row⟩) (f row) Q) :
    M.Guarantees env w (askEndUsers o >>= f) Q :=
  .perform_ofExcept herror hf

/-- A column keeps its value when it is written without one exactly if it has none. -/
theorem Stores.keeps_iff {field : BodyField Decimal} {old row : Option Decimal} (h : Stores field.join row) :
    (field = none → row = old) ↔ ¬ (field = none ∧ old ≠ none) := by
  cases field with
  | some given => simp
  | none =>
      obtain rfl : row = none := by simpa using h
      rw [not_and, not_ne_iff]
      exact ⟨fun hkept hnone => (hkept hnone).symm, fun hkept hnone => (hkept hnone).symm⟩

theorem updateEndUser_keeps_iff {env : Environment EndUserStore} (userId : Uuid) (body : UpdateEndUserBody) :
    (endUserTenant state).Guarantees env s (updateEndUser claims userId body.request)
      fun out s' => ∀ row, out = .ok row → ((PatchCall.endUser userId body).KeepsAbsent claims s s'
        ↔ ¬ (PatchCall.endUser userId body).DropsBudget claims s) := by
  refine .bind requireManageEndUsers_idle (fun role s' hsame => ?_) fun e s' _ _ h => by cases h
  obtain rfl : s' = s := hsame
  have hown : (endUserTenant state).Guarantees env s' (ownEndUser role claims userId)
      fun _ s'' => s'' = s' := by
    refine askEndUsers_bind (fun _ _ => rfl) fun (endUser : EndUser) _ => ?_
    split_ifs
    · exact .throw rfl
    · exact .pure rfl
  refine .bind hown (fun _ s'' hsame => ?_) fun e s' _ _ h => by cases h
  obtain rfl : s'' = s' := hsame
  refine .perform fun updated _ haccepts => ?_
  cases updated with
  | error e => exact .throw fun _ h => by cases h
  | ok row =>
      obtain ⟨old, hold, hrow, hbudget, hmax⟩ := haccepts
      have hold : s''.endUsers.find? (userId, claims.organizationId) = some old := hold
      have hkey : (EndUser.userId row, EndUser.organizationId row) = (userId, claims.organizationId) :=
        (congrArg (fun row : EndUser => (row.userId, row.organizationId)) hrow).trans
          (Table.find?_eq_some_iff.1 hold).2
      have hupdated := Table.find?_replace_of_key hold hkey
      refine .pure fun _ _ => ⟨?_, fun hkept => ⟨old, row, hold, hupdated, ?_⟩⟩
      · rintro ⟨old', row', hold', hrow', hkeeps⟩ ⟨old'', hold'', hdropped⟩
        rw [hold] at hold' hold''
        cases hold'
        cases hold''
        obtain rfl := Option.some.inj (hupdated.symm.trans hrow')
        rcases hdropped with hdropped | hdropped
        · exact hbudget.keeps_iff.1 hkeeps.budgetUsd hdropped
        · exact hmax.keeps_iff.1 hkeeps.maxBudgetUsd hdropped
      · exact ⟨hbudget.keeps_iff.2 fun h => hkept ⟨old, hold, .inl h⟩,
          hmax.keeps_iff.2 fun h => hkept ⟨old, hold, .inr h⟩, hrow⟩

end Handlers

/-- An update that succeeds keeps every column that the body leaves out, unless it is of an end user and leaves out
    a budget that is set. -/
theorem patch_keepsAbsent_iff (state : AuthState) (s : TenantWorld) (hs : s.Typed) (claims : Claims)
    (call : PatchCall) (env : Environment TenantStore) (tr : List (Step TenantStore)) (response : TenantResponse)
    (hrun : (TenantRequest.serve ⟨claims, call.request⟩).Runs env tr (.ok response))
    (hsafe : (tenantWorld state).Safe s tr) :
    call.KeepsAbsent claims s ((tenantWorld state).after s tr) ↔ ¬ call.DropsBudget claims s := by
  cases call with
  | team id body =>
      have hkeeps : (tenantWorld state).Guarantees env s (TenantRequest.serve ⟨claims, PatchCall.request (.team id body)⟩)
          fun out s' => ∀ r, out = .ok r → (PatchCall.team id body).KeepsAbsent claims s s' :=
        .embed (respond_succeeds (.embed (respond_succeeds (updateTeam_keeps hs id body))))
      exact iff_of_true (hkeeps tr _ hrun hsafe _ rfl) not_false
  | user id body =>
      have hkeeps : (tenantWorld state).Guarantees env s (TenantRequest.serve ⟨claims, PatchCall.request (.user id body)⟩)
          fun out s' => ∀ r, out = .ok r → (PatchCall.user id body).KeepsAbsent claims s s' :=
        .embed (respond_succeeds (.embed (respond_succeeds (updateUser_keeps id body))))
      exact iff_of_true (hkeeps tr _ hrun hsafe _ rfl) not_false
  | endUser userId body =>
      have hkeeps : (tenantWorld state).Guarantees env s
          (TenantRequest.serve ⟨claims, PatchCall.request (.endUser userId body)⟩)
          fun out s' => ∀ r, out = .ok r → ((PatchCall.endUser userId body).KeepsAbsent claims s s'
            ↔ ¬ (PatchCall.endUser userId body).DropsBudget claims s) :=
        .embed (respond_succeeds (updateEndUser_keeps_iff userId body))
      exact hkeeps tr _ hrun hsafe _ rfl

/-! ## A lost limit -/

/-- The end user 3 of organization 10 with a budget of 5 and a limit of 100. -/
def budgetedRow : EndUser := ⟨7, 10, 3, some (.ofInt32 5), some (.ofInt32 100), 0, 0⟩

/-- One end user has a budget. -/
def budgetedTenant : TenantWorld where
  org := sampleOrg
  endUsers := ⟨[budgetedRow], by decide⟩

theorem budgetedTenant_typed : budgetedTenant.Typed := by
  constructor
  · intro team hteam
    obtain rfl := List.mem_singleton.1 hteam
    exact ⟨rfl, rfl⟩
  · intro row hrow
    obtain rfl := List.mem_singleton.1 hrow
    constructor <;> decide +kernel

/-- The super admin gives the end user a budget of 6, and a new limit if there is one. -/
def newBudget (limit : BodyField Decimal) : PatchCall := .endUser 3 ⟨some (some (.ofInt32 6)), limit⟩

/-- The two statements of an update of that budget. -/
def newBudgetSteps (limit : Option Decimal) : List (Step TenantStore) :=
  [⟨.inr (.getByUser 10 3), .ok budgetedRow⟩,
    ⟨.inr (.updateBudgets 10 3 (some (.ofInt32 6)) limit),
      .ok { budgetedRow with budgetUsd := some (.ofInt32 6), maxBudgetUsd := limit, updatedAt := 9 }⟩]

theorem newBudget_runs (limit : BodyField Decimal) :
    (TenantRequest.serve ⟨⟨1, 10, "super_admin"⟩, (newBudget limit).request⟩).Runs anyAnswer
      (newBudgetSteps limit.join) (.ok (.endUser
        { budgetedRow with budgetUsd := some (.ofInt32 6), maxBudgetUsd := limit.join, updatedAt := 9 })) :=
  .op trivial (.op trivial (.pure _))

theorem newBudget_safe {limit : Option Decimal} (hlimit : Stores limit limit) :
    (tenantWorld sampleAuthState).Safe budgetedTenant (newBudgetSteps limit) := by
  have hsix : Stores (some (.ofInt32 6)) (some (.ofInt32 6)) := by decide +kernel
  exact ⟨rfl, ⟨budgetedRow, rfl, rfl, hsix, hlimit⟩, trivial⟩

/-- A body with both budgets loses nothing. -/
theorem patch_keepsAbsent_both :
    (newBudget (some (some (.ofInt32 200)))).KeepsAbsent ⟨1, 10, "super_admin"⟩ budgetedTenant
      ((tenantWorld sampleAuthState).after budgetedTenant (newBudgetSteps (some (.ofInt32 200)))) := by
  have hlimit : Stores (some (.ofInt32 200)) (some (.ofInt32 200)) := by decide +kernel
  refine (patch_keepsAbsent_iff sampleAuthState budgetedTenant budgetedTenant_typed ⟨1, 10, "super_admin"⟩
    (newBudget (some (some (.ofInt32 200)))) anyAnswer (newBudgetSteps (some (.ofInt32 200))) _
    (newBudget_runs (some (some (.ofInt32 200)))) (newBudget_safe hlimit)).2 ?_
  rintro ⟨old, -, ⟨h, -⟩ | ⟨h, -⟩⟩ <;> cases h

/-- A body with a budget only drops the limit. -/
theorem patch_drops_limit :
    ¬ ∀ (s : TenantWorld), s.Typed → ∀ (claims : Claims) (call : PatchCall) (tr : List (Step TenantStore))
      (response : TenantResponse),
      (TenantRequest.serve ⟨claims, call.request⟩).Runs anyAnswer tr (.ok response) →
      (tenantWorld sampleAuthState).Safe s tr →
      call.KeepsAbsent claims s ((tenantWorld sampleAuthState).after s tr) := by
  intro h
  obtain ⟨old, row, hold, hrow, hkeeps⟩ := h budgetedTenant budgetedTenant_typed ⟨1, 10, "super_admin"⟩
    (newBudget none) (newBudgetSteps none) _ (newBudget_runs none) (newBudget_safe rfl)
  cases hold
  cases hrow
  exact absurd (hkeeps.maxBudgetUsd rfl) (by decide)

end Godwit
