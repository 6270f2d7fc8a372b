import Godwit.Admin.Teams
import Godwit.Admin.Proofs.Users

set_option autoImplicit false

/-! # Members of the team's organization

Adding a member looks at the organization of the team only, and moving a user to another organization drops
the memberships in a statement of its own. Every other request keeps the organizations of users and teams
with memberships apart from each other's. -/

namespace Godwit

/-! ## Links -/

/-- The membership links a user and a team of one organization. -/
def OrgWorld.Linked (s : OrgWorld) (m : TeamMembership) : Prop :=
  ∃ user ∈ s.accounts.users, ∃ team ∈ s.teams, user.id = m.userId ∧ team.id = m.teamId
    ∧ user.organizationId = some team.organizationId

/-- Every stored membership does. -/
def OrgWorld.Consistent (s : OrgWorld) : Prop := ∀ m ∈ s.memberships, s.Linked m

/-- The user and the team are of different organizations. -/
def OrgWorld.Apart (s : OrgWorld) (userId teamId : Uuid) : Prop :=
  ∃ user ∈ s.accounts.users, ∃ team ∈ s.teams, user.id = userId ∧ team.id = teamId
    ∧ user.organizationId ≠ some team.organizationId

section Links

variable {s s' : OrgWorld} {m : TeamMembership}

theorem OrgWorld.Apart.not_linked (h : s.Apart m.userId m.teamId) : ¬ s.Linked m := by
  rintro ⟨user, huser, team, hteam, huserId, hteamId, hsame⟩
  obtain ⟨user', huser', team', hteam', huserId', hteamId', hother⟩ := h
  obtain rfl := Table.eq_of_key huser huser' (huserId.trans huserId'.symm)
  obtain rfl := Table.eq_of_key hteam hteam' (hteamId.trans hteamId'.symm)
  exact hother hsame

/-- A membership stays linked while its user and its team stay in their organizations. -/
theorem OrgWorld.Linked.of_rows (h : s.Linked m)
    (husers : ∀ user ∈ s.accounts.users, user.id = m.userId →
      ∃ user' ∈ s'.accounts.users, user'.id = user.id ∧ user'.organizationId = user.organizationId)
    (hteams : ∀ team ∈ s.teams, team.id = m.teamId →
      ∃ team' ∈ s'.teams, team'.id = team.id ∧ team'.organizationId = team.organizationId) : s'.Linked m := by
  obtain ⟨user, huser, team, hteam, huserId, hteamId, hsame⟩ := h
  obtain ⟨user', huser', huserId', horg⟩ := husers user huser huserId
  obtain ⟨team', hteam', hteamId', horg'⟩ := hteams team hteam hteamId
  refine ⟨user', huser', team', hteam', huserId'.trans huserId, hteamId'.trans hteamId, ?_⟩
  rw [horg, horg']
  exact hsame

theorem OrgWorld.Linked.of_kept (h : s.Linked m)
    (husers : ∀ user ∈ s.accounts.users, user.id = m.userId → user ∈ s'.accounts.users)
    (hteams : ∀ team ∈ s.teams, team.id = m.teamId → team ∈ s'.teams) : s'.Linked m :=
  h.of_rows (fun user hin hid => ⟨user, husers user hin hid, rfl, rfl⟩)
    fun team hin hid => ⟨team, hteams team hin hid, rfl, rfl⟩

/-! ## Statements -/

variable {state : AuthState}

/-- The statements that keep every membership linked, whatever they are given. -/
def KeepsLinks : OrgStore.Op → Prop
  | .inl (.getUserById _) | .inl (.createUser _ _ _ _) | .inl (.deleteUser _) | .inl (.removeMemberships _) => True
  | .inl _ => False
  | .inr (.addMember _ _ _) => False
  | .inr _ => True

theorem OrgWorld.Consistent.next (hs : s.Consistent) {step : Step OrgStore} (hop : KeepsLinks step.op)
    (haccepts : s.answers state step.op step.answer) : (s.next state step).Consistent := by
  obtain ⟨o, answer⟩ := step
  cases o with
  | inl o =>
      cases o with
      | getUserById id => exact hs
      | createUser email name role organizationId =>
          cases answer with
          | error e => exact hs
          | ok user =>
              obtain ⟨hfresh, -⟩ := haccepts
              exact fun m hm => (hs m hm).of_kept
                (fun other hin _ => (Table.mem_insert_of_fresh hfresh).2 (.inl hin)) fun _ hin _ => hin
      | deleteUser id =>
          cases answer with
          | error e => exact hs
          | ok done =>
              intro m hm
              obtain ⟨hin, hne⟩ := Table.mem_delete.1 hm
              have huserId : m.userId ≠ id := by simpa using hne
              refine (hs m hin).of_kept (fun user huser hid => Table.mem_delete.2 ⟨huser, ?_⟩)
                fun _ hteam _ => hteam
              simpa [hid] using huserId
      | removeMemberships userId =>
          cases answer with
          | error e => exact hs
          | ok done => exact fun m hm => hs m (Table.mem_delete.1 hm).1
      | _ => exact hop.elim
  | inr o =>
      cases o with
      | create organizationId name budgetUsd maxBudgetUsd =>
          cases answer with
          | error e => exact hs
          | ok team =>
              obtain ⟨hfresh, -⟩ := haccepts
              exact fun m hm => (hs m hm).of_kept (fun _ hin _ => hin)
                fun other hin _ => (Table.mem_insert_of_fresh hfresh).2 (.inl hin)
      | updateWithBudget id name budgetUsd maxBudgetUsd =>
          cases answer with
          | error e => exact hs
          | ok row =>
              obtain ⟨old, hold, hrow⟩ := haccepts
              obtain ⟨hmem, -⟩ := Table.find?_eq_some_iff.1 hold
              have hid : row.id = old.id := by rw [hrow]
              have horg : row.organizationId = old.organizationId := by rw [hrow]
              refine fun m hm => (hs m hm).of_rows (fun user hin _ => ⟨user, hin, rfl, rfl⟩) fun team hin _ => ?_
              by_cases hsame : team.id = row.id
              · obtain rfl := Table.eq_of_key hin hmem (hsame.trans hid)
                exact ⟨row, Table.mem_replace.2 (.inr ⟨rfl, team, hmem, hid.symm⟩), hid, horg⟩
              · exact ⟨team, Table.mem_replace.2 (.inl ⟨hin, hsame⟩), rfl, rfl⟩
      | delete id =>
          cases answer with
          | error e => exact hs
          | ok done =>
              intro m hm
              obtain ⟨hin, hne⟩ := Table.mem_delete.1 hm
              have hteamId : m.teamId ≠ id := by simpa using hne
              refine (hs m hin).of_kept (fun _ huser _ => huser)
                fun team hteam hid => Table.mem_delete.2 ⟨hteam, ?_⟩
              simpa [hid] using hteamId
      | removeMember teamId userId =>
          cases answer with
          | error e => exact hs
          | ok done => exact fun m hm => hs m (Table.mem_delete.1 hm).1
      | addMember teamId userId role => exact hop.elim
      | _ => exact hs

end Links

/-! ## Requests that keep the links -/

section Handlers

variable {claims : Claims} {P : TeamOp → Prop}

theorem askTeams_only {o : TeamOp} (h : P o) : (askTeams o).Only P :=
  .perform h fun _ => .ofExcept _

theorem requireManageUsers_only : (requireManageUsers claims).Only P := by
  unfold requireManageUsers
  split
  · trivial
  · split_ifs <;> trivial

theorem ownTeam_only {role : Role} {id : Uuid} (h : P (.getById id)) : (ownTeam role claims id).Only P := by
  refine .bind (askTeams_only h) fun team => ?_
  split_ifs <;> trivial

theorem requireTeamManage_only {teamId : Uuid} (hteam : P (.getById teamId))
    (hmember : P (.getMembership teamId claims.userId)) : (requireTeamManage claims teamId).Only P := by
  unfold requireTeamManage
  split
  · trivial
  · trivial
  · refine .bind (askTeams_only hteam) fun team => ?_
    split_ifs
    · trivial
    · refine .perform hmember fun answer => ?_
      cases answer with
      | error e => trivial
      | ok membership =>
          dsimp only
          split_ifs <;> trivial

theorem respond_only {S : Signature} {α : Type} {P : S.Op → Prop} {p : Program S ApiError α}
    {response : α → OrgResponse} (h : p.Only P) : (respond p response).Only P :=
  h.bind fun _ => trivial

/-- Neither adds a member nor updates a user. -/
def OrgCall.keepsLinks : OrgCall → Bool
  | .addMember _ _ | .updateUser _ _ => false
  | _ => true

/-- Such a request performs statements that keep the links only. -/
theorem OrgRequest.serve_only {r : OrgRequest} (h : r.call.keepsLinks = true) : r.serve.Only KeepsLinks := by
  obtain ⟨claims, call⟩ := r
  cases call with
  | listTeams organizationId =>
      have hlist (o : TeamOp) (h : KeepsLinks (.inr o)) : (askTeams o).Only fun o => KeepsLinks (.inr o) :=
        askTeams_only h
      refine .embed (respond_only (.bind requireManageUsers_only fun role => ?_))
      cases role <;> cases organizationId <;> exact hlist _ trivial
  | getTeam id => exact .embed (respond_only (.bind requireManageUsers_only fun role => ownTeam_only trivial))
  | createTeam req =>
      exact .embed (respond_only (.bind requireManageUsers_only fun role => .bind (.ofExcept _) fun _ =>
        askTeams_only trivial))
  | updateTeam id req =>
      exact .embed (respond_only (.bind requireManageUsers_only fun role =>
        .bind (ownTeam_only trivial) fun team => askTeams_only trivial))
  | deleteTeam id =>
      exact .embed (respond_only (.bind requireManageUsers_only fun role =>
        .bind (ownTeam_only trivial) fun team => askTeams_only trivial))
  | removeMember teamId userId =>
      exact .embed (respond_only (.bind (requireTeamManage_only trivial trivial) fun _ => askTeams_only trivial))
  | createUser req =>
      refine .embed (respond_only (.bind (.ofExcept _) fun callerRole => .bind (.ofExcept _) fun role =>
        .bind (.ofExcept _) fun _ => .perform trivial fun created => .bind (.ofExcept _) fun user => trivial))
  | deleteUser id =>
      refine .embed (respond_only (.bind (.ofExcept _) fun role => .bind (.ofExcept _) fun _ =>
        .perform trivial fun answer => .bind (.ofExcept _) fun target => .bind (.ofExcept _) fun _ =>
          .bind (.ofExcept _) fun _ => .perform trivial fun executed => .ofExcept _))
  | addMember teamId req => cases h
  | updateUser id req => cases h

end Handlers

/-! ## Adding a member -/

/-- The caller may change the members of the team. -/
def OrgWorld.MayManage (s : OrgWorld) (claims : Claims) (teamId : Uuid) : Prop :=
  claims.role = "super_admin" ∨ ((Role.fromStr claims.role).isSome ∧ ∃ team ∈ s.teams, team.id = teamId
    ∧ ((claims.role = "org_admin" ∧ team.organizationId = claims.organizationId)
      ∨ ∃ m ∈ s.memberships, m.userId = claims.userId ∧ m.teamId = teamId ∧ m.role = "team_admin"))

/-- Some statement on teams failed. -/
def TeamsFail (steps : List (Step OrgStore)) : Prop :=
  ∃ (o : TeamOp) (msg : String), (⟨.inr o, .error (.database msg)⟩ : Step OrgStore) ∈ steps

/-- The world with the steps of the request. -/
abbrev orgRecord (state : AuthState) : Monitor OrgStore := (orgWorld state).recording

/-- What a handler on teams does there. -/
abbrev teamRecord (state : AuthState) : Monitor TeamStore := Signature.Embedding.right.monitor (orgRecord state)

section AddMember

variable {state : AuthState} {env : Environment TeamStore} {s : OrgWorld} {claims : Claims} {teamId : Uuid}

theorem askTeams_bind {M : Monitor TeamStore} {w : M.State} {o : TeamOp} {β : Type} {f : o.Row → TeamApp β}
    {Q : Except ApiError β → M.State → Prop}
    (herror : ∀ e, M.accepts w ⟨o, .error e⟩ → Q (.error (.core e)) (M.next w ⟨o, .error e⟩))
    (hf : ∀ row, M.accepts w ⟨o, .ok row⟩ → M.Guarantees env (M.next w ⟨o, .ok row⟩) (f row) Q) :
    M.Guarantees env w (askTeams o >>= f) Q :=
  .perform_ofExcept herror hf

theorem OrgWorld.mayManage_iff {role : Role} (hrole : Role.fromStr claims.role = some role)
    (hplain : role ≠ .superAdmin) :
    s.MayManage claims teamId ↔ ∃ team, s.teams.find? teamId = some team
      ∧ ((role = .orgAdmin ∧ team.organizationId = claims.organizationId)
        ∨ ∃ m, s.memberships.find? (claims.userId, teamId) = some m ∧ m.role = "team_admin") := by
  have htext : claims.role = role.asStr := Role.fromStr_eq_some_iff.1 hrole
  have hsuper : claims.role ≠ "super_admin" := by
    rw [htext]
    cases role <;> first | exact absurd rfl hplain | decide
  have horgAdmin : claims.role = "org_admin" ↔ role = .orgAdmin := by
    rw [htext]
    cases role <;> decide
  unfold MayManage
  simp only [hsuper, hrole, horgAdmin, false_or, Option.isSome_some, true_and, Table.find?_eq_some_iff,
    Prod.mk.injEq, and_assoc]

theorem not_teamsFail_nil : ¬ TeamsFail [] := by
  rintro ⟨o, msg, hmem⟩
  cases hmem

/-- The check passes exactly who may manage the team, unless a statement fails. -/
theorem requireTeamManage_passes :
    (teamRecord state).Guarantees env (s, []) (requireTeamManage claims teamId)
      fun out s' => s'.1 = s ∧ (out = .ok () ↔ s.MayManage claims teamId ∧ ¬ TeamsFail s'.2) := by
  unfold requireTeamManage
  split
  · rename_i hnone
    refine .throw ⟨rfl, nofun, ?_⟩
    rintro ⟨hsuper | ⟨hsome, -⟩, -⟩
    · rw [hsuper] at hnone
      exact absurd hnone (by decide)
    · rw [hnone] at hsome
      cases hsome
  · rename_i hsuper
    exact .pure ⟨rfl, fun _ => ⟨.inl (Role.fromStr_eq_some_iff.1 hsuper), not_teamsFail_nil⟩, fun _ => rfl⟩
  · rename_i role hplain hrole
    -- everyone but a super admin has to be found in the team or its organization
    have hmanage : s.MayManage claims teamId ↔ _ := s.mayManage_iff hrole hplain
    refine askTeams_bind (fun e haccepts => ⟨rfl, nofun, ?_⟩) fun (team : Team) hteam => ?_
    · rintro ⟨hmay, hfail⟩
      obtain ⟨team, hfound, -⟩ := hmanage.1 hmay
      cases e with
      | notFound =>
          have hnone : none = s.teams.find? teamId := haccepts
          rw [hfound] at hnone
          cases hnone
      | database msg => exact absurd ⟨.getById teamId, msg, List.mem_singleton_self _⟩ hfail
      | _ => exact haccepts.elim
    · have hfound : some team = s.teams.find? teamId := hteam
      replace hmanage : s.MayManage claims teamId ↔ (role = .orgAdmin ∧ team.organizationId = claims.organizationId)
          ∨ ∃ m, s.memberships.find? (claims.userId, teamId) = some m ∧ m.role = "team_admin" := by
        rw [hmanage, ← hfound]
        simp
      -- a read that succeeds is no failure
      have hread : ¬ TeamsFail [⟨.inr (.getById teamId), .ok team⟩] := by
        rintro ⟨o, msg, hmem⟩
        cases List.mem_singleton.1 hmem
      split_ifs with hadmin
      · exact .pure ⟨rfl, fun _ => ⟨hmanage.2 (.inl hadmin), hread⟩, fun _ => rfl⟩
      · refine .perform fun answer _ haccepts => ?_
        cases answer with
        | error e =>
            refine .throw ⟨rfl, nofun, ?_⟩
            rintro ⟨hmay, hfail⟩
            obtain ⟨m, hstored, -⟩ := (hmanage.1 hmay).resolve_left hadmin
            cases e with
            | notFound =>
                have hnone : none = s.memberships.find? (claims.userId, teamId) := haccepts
                rw [hstored] at hnone
                cases hnone
            | database msg =>
                refine absurd ⟨.getMembership teamId claims.userId, msg, ?_⟩ hfail
                exact List.mem_append_right _ (List.mem_singleton_self _)
            | _ => exact haccepts.elim
        | ok membership =>
            have hstored : some membership = s.memberships.find? (claims.userId, teamId) := haccepts
            change TeamMembership at membership
            dsimp only
            split_ifs with hadminOfTeam
            · refine .pure ⟨rfl, fun _ => ⟨hmanage.2 (.inr ⟨membership, hstored.symm, hadminOfTeam⟩), ?_⟩,
              fun _ => rfl⟩
              rintro ⟨o, msg, hmem⟩
              rcases List.mem_append.1 hmem with hfirst | hsecond
              · exact hread ⟨o, msg, hfirst⟩
              · cases List.mem_singleton.1 hsecond
            · refine .throw ⟨rfl, nofun, ?_⟩
              rintro ⟨hmay, -⟩
              obtain ⟨m, hm, hrole'⟩ := (hmanage.1 hmay).resolve_left hadmin
              rw [← hstored] at hm
              cases hm
              exact absurd hrole' hadminOfTeam

/-- A new membership of an existing user in an existing team. -/
theorem OrgWorld.Consistent.upsert_iff (hs : s.Consistent) {m : TeamMembership}
    (huser : (s.accounts.users.find? m.userId).isSome) (hteam : (s.teams.find? m.teamId).isSome) :
    { s with memberships := s.memberships.upsert m }.Consistent ↔ ¬ s.Apart m.userId m.teamId := by
  constructor
  · intro hconsistent hapart
    exact hapart.not_linked (hconsistent m (Table.mem_upsert.2 (.inr rfl)))
  · intro hnot other hin
    rcases Table.mem_upsert.1 hin with ⟨hmem, -⟩ | rfl
    · exact hs other hmem
    · obtain ⟨user, huser⟩ := Option.isSome_iff_exists.1 huser
      obtain ⟨team, hteam⟩ := Option.isSome_iff_exists.1 hteam
      obtain ⟨huser, huserId⟩ := Table.find?_eq_some_iff.1 huser
      obtain ⟨hteam, hteamId⟩ := Table.find?_eq_some_iff.1 hteam
      refine ⟨user, huser, team, hteam, huserId, hteamId, ?_⟩
      by_contra hother
      exact hnot ⟨user, huser, team, hteam, huserId, hteamId, hother⟩

/-- `add_member` misplaces a user of another organization, if it may and nothing fails. -/
def OrgWorld.AddsStranger (s : OrgWorld) (claims : Claims) (teamId : Uuid) (req : AddMemberRequest) : Prop :=
  s.MayManage claims teamId ∧ (req.role = "team_admin" ∨ req.role = "member") ∧ s.Apart req.userId teamId

theorem addMember_consistent_iff (hs : s.Consistent) {req : AddMemberRequest} :
    (teamRecord state).Guarantees env (s, []) (addMember claims teamId req)
      fun _ s' => s'.1.Consistent ↔ ¬ (s.AddsStranger claims teamId req ∧ ¬ TeamsFail s'.2) := by
  refine .bind requireTeamManage_passes (fun _ s' h => ?_) fun e s' h => ?_
  · obtain ⟨rfl, hpassed⟩ := h
    obtain ⟨hmay, hnofail⟩ := hpassed.1 rfl
    refine .ofExcept_bind (fun e hinvalid => ⟨fun _ => ?_, fun _ => hs⟩) fun _ hvalid => ?_
    · rintro ⟨⟨-, hvalid, -⟩, -⟩
      unfold checkMemberRole at hinvalid
      split_ifs at hinvalid with hrole
      exact hvalid.elim hrole.1 hrole.2
    · refine .perform fun answer _ haccepts => ?_
      cases answer with
      | error e =>
          refine .throw ⟨fun _ => ?_, fun _ => hs⟩
          rintro ⟨-, hnone⟩
          cases e with
          | database msg => exact hnone ⟨_, msg, List.mem_append_right _ (List.mem_singleton_self _)⟩
          | _ => exact haccepts.elim
      | ok m =>
          obtain ⟨rfl, huser, hteam⟩ := haccepts
          refine .pure ((hs.upsert_iff huser hteam).trans (not_congr ⟨fun hapart => ?_, fun h => h.1.2.2⟩))
          refine ⟨⟨hmay, ?_, hapart⟩, ?_⟩
          · unfold checkMemberRole at hvalid
            split_ifs at hvalid with hrole
            by_contra hneither
            exact hrole (not_or.1 hneither)
          · rintro ⟨o, msg, hmem⟩
            rcases List.mem_append.1 hmem with hfirst | hsecond
            · exact hnofail ⟨o, msg, hfirst⟩
            · cases List.mem_singleton.1 hsecond
  · obtain ⟨rfl, hpassed⟩ := h
    refine ⟨fun _ => ?_, fun _ => hs⟩
    rintro ⟨⟨hmay, -⟩, hnofail⟩
    cases hpassed.2 ⟨hmay, hnofail⟩

end AddMember

/-! ## Moving a user -/

/-- The user is a member of some team. -/
def OrgWorld.IsMember (s : OrgWorld) (userId : Uuid) : Prop := ∃ m ∈ s.memberships, m.userId = userId

/-- The memberships of the user could not be deleted. -/
def RemovalFails (id : Uuid) (steps : List (Step OrgStore)) : Prop :=
  ∃ e, (⟨.inl (.removeMemberships id), .error e⟩ : Step OrgStore) ∈ steps

/-- What a handler on accounts does to the world with the steps of the request. -/
abbrev accountRecord (state : AuthState) : Monitor AccountStore :=
  Signature.Embedding.left.monitor (orgRecord state)

section UpdateUser

variable {state : AuthState} {env : Environment AccountStore} {s s' : OrgWorld} {claims : Claims} {id : Uuid}
  {target row : User}

/-- Only memberships of others are left. -/
theorem OrgWorld.Consistent.of_others (hs : s.Consistent)
    (husers : s'.accounts.users = s.accounts.users.replace row) (hteams : s'.teams = s.teams)
    (hmemberships : ∀ m ∈ s'.memberships, m ∈ s.memberships ∧ m.userId ≠ row.id) : s'.Consistent := by
  intro m hm
  obtain ⟨hin, hother⟩ := hmemberships m hm
  refine (hs m hin).of_kept (fun user huser hid => ?_) fun team hteam _ => by rwa [hteams]
  rw [husers]
  exact Table.mem_replace.2 (.inl ⟨huser, by rw [hid]; exact hother⟩)

/-- A user who stays in the organization. -/
theorem OrgWorld.Consistent.of_stays (hs : s.Consistent) (htarget : target ∈ s.accounts.users)
    (hid : row.id = target.id) (hstays : row.organizationId = target.organizationId)
    (husers : s'.accounts.users = s.accounts.users.replace row) (hteams : s'.teams = s.teams)
    (hmemberships : s'.memberships = s.memberships) : s'.Consistent := by
  intro m hm
  rw [hmemberships] at hm
  refine (hs m hm).of_rows (fun user huser _ => ?_) fun team hteam _ => ⟨team, by rwa [hteams], rfl, rfl⟩
  rw [husers]
  by_cases hsame : user.id = row.id
  · obtain rfl := Table.eq_of_key huser htarget (hsame.trans hid)
    exact ⟨row, Table.mem_replace.2 (.inr ⟨rfl, user, huser, hid.symm⟩), hid, hstays⟩
  · exact ⟨user, Table.mem_replace.2 (.inl ⟨huser, hsame⟩), rfl, rfl⟩

/-- A user who moves to another organization with all memberships. -/
theorem OrgWorld.Consistent.moved_iff (hs : s.Consistent) (htarget : target ∈ s.accounts.users)
    (hid : row.id = target.id) (hmoves : row.organizationId ≠ target.organizationId)
    (husers : s'.accounts.users = s.accounts.users.replace row) (hteams : s'.teams = s.teams)
    (hmemberships : s'.memberships = s.memberships) : s'.Consistent ↔ ¬ s.IsMember target.id := by
  constructor
  · rintro hconsistent ⟨m, hm, huserId⟩
    obtain ⟨user, huser, team, hteam, hid', hteamId, hsame⟩ := hs m hm
    obtain rfl := Table.eq_of_key huser htarget (hid'.trans huserId)
    have hrow : row ∈ s'.accounts.users := by
      rw [husers]
      exact Table.mem_replace.2 (.inr ⟨rfl, user, huser, hid.symm⟩)
    have hapart : s'.Apart m.userId m.teamId := by
      refine ⟨row, hrow, team, by rwa [hteams], hid.trans hid', hteamId, ?_⟩
      rw [← hsame]
      exact hmoves
    rw [← hmemberships] at hm
    exact hapart.not_linked (hconsistent m hm)
  · intro hno
    refine hs.of_others husers hteams fun m hm => ?_
    rw [hmemberships] at hm
    refine ⟨hm, fun huserId => hno ⟨m, hm, ?_⟩⟩
    rw [huserId, hid]

theorem not_removalFails_append {steps : List (Step OrgStore)} (h : ¬ RemovalFails id steps) {o : AccountOp}
    {answer : o.Answer} (ho : o ≠ .removeMemberships id) : ¬ RemovalFails id (steps ++ [⟨.inl o, answer⟩]) := by
  rintro ⟨e, hmem⟩
  rcases List.mem_append.1 hmem with hfirst | hlast
  · exact h ⟨e, hfirst⟩
  · cases List.mem_singleton.1 hlast
    exact ho rfl

/-- The new row of the user, and no attempt to delete memberships yet. -/
theorem updateUserRow_moves {steps : List (Step OrgStore)} {name role : Option String}
    {organizationId : Option Uuid} (hfind : s.accounts.users.find? id = some target)
    (hnone : ¬ RemovalFails id steps) :
    (accountRecord state).Guarantees env (s, steps) (updateUserRow id name role organizationId)
      fun out s' => ¬ RemovalFails id s'.2 ∧ match out with
        | .error _ => s'.1 = s
        | .ok row => row.id = target.id ∧ row.organizationId = organizationId.or target.organizationId
          ∧ s'.1.accounts.users = s.accounts.users.replace row ∧ s'.1.teams = s.teams
          ∧ s'.1.memberships = s.memberships := by
  refine .perform fun answer _ haccepts => orCoreError_bind (fun e _ => ⟨?_, rfl⟩) fun current hcurrent => ?_
  · exact not_removalFails_append hnone nofun
  · subst hcurrent
    have hsame : some current = s.accounts.users.find? id := haccepts
    rw [hfind] at hsame
    cases hsame
    have hread : ¬ RemovalFails id (steps ++ [⟨.inl (.getUserById id), Except.ok target⟩]) :=
      not_removalFails_append hnone nofun
    refine .perform fun updated _ haccepts => ?_
    cases updated with
    | error e => exact .throw ⟨not_removalFails_append hread nofun, rfl⟩
    | ok row =>
        obtain ⟨old, hold, hrow⟩ := haccepts
        have hold' : s.accounts.users.find? id = some old := hold
        rw [hfind] at hold'
        cases hold'
        refine .pure ⟨not_removalFails_append hread nofun, ?_, ?_, rfl, rfl, rfl⟩ <;> rw [hrow]

theorem updateUser_consistent_iff (hs : s.Consistent) {req : UpdateUserRequest} :
    (accountRecord state).Guarantees env (s, []) (updateUser claims id req)
      fun _ s' => s'.1.Consistent ↔ ¬ (s.IsMember id ∧ RemovalFails id s'.2) := by
  -- a request that ends before the removal leaves the links as they are
  have hearly (steps : List (Step OrgStore)) (hnone : ¬ RemovalFails id steps) :
      s.Consistent ↔ ¬ (s.IsMember id ∧ RemovalFails id steps) :=
    ⟨fun _ h => hnone h.2, fun _ => hs⟩
  have hnil : ¬ RemovalFails id [] := by
    rintro ⟨e, hmem⟩
    cases hmem
  refine .ofExcept_bind (fun _ _ => hearly _ hnil) fun role _ => ?_
  refine .ofExcept_bind (fun _ _ => hearly _ hnil) fun _ _ => ?_
  refine .perform fun answer _ haccepts => ?_
  have hread : ¬ RemovalFails id ([] ++ [⟨.inl (.getUserById id), answer⟩]) := not_removalFails_append hnil nofun
  refine orCoreError_bind (fun e _ => hearly _ hread) fun target hanswer => ?_
  subst hanswer
  have hfind : some target = s.accounts.users.find? id := haccepts
  obtain ⟨htarget, rfl⟩ := Table.find?_eq_some_iff.1 hfind.symm
  refine .ofExcept_bind (fun _ _ => hearly _ hread) fun _ _ => ?_
  refine .ofExcept_bind (fun _ _ => hearly _ hread) fun _ _ => ?_
  refine .ofExcept_bind (fun _ _ => hearly _ hread) fun _ _ => ?_
  refine .ofExcept_bind (fun _ _ => hearly _ hread) fun _ _ => ?_
  refine .bind (updateUserRow_moves hfind.symm hread) (fun row s' h => ?_) fun e s' h => ?_
  · obtain ⟨hnone, hid, horg, husers, hteams, hmemberships⟩ := h
    by_cases hreassigns : req.organizationId.isSome ∧ req.organizationId ≠ target.organizationId
    · rw [if_pos hreassigns]
      have hmoves : row.organizationId ≠ target.organizationId := by
        obtain ⟨organizationId, hnew⟩ := Option.isSome_iff_exists.1 hreassigns.1
        rw [horg, hnew]
        simpa [hnew] using hreassigns.2
      refine .perform fun executed _ _ => ?_
      cases executed with
      | error e =>
          have hfails : RemovalFails target.id (s'.2 ++ [⟨.inl (.removeMemberships target.id), .error e⟩]) :=
            ⟨e, List.mem_append_right _ (List.mem_singleton_self _)⟩
          have hmoved := hs.moved_iff htarget hid hmoves husers hteams hmemberships
          exact .throw (hmoved.trans (not_congr ⟨fun hmember => ⟨hmember, hfails⟩, And.left⟩))
      | ok done =>
          refine .pure ⟨fun _ h => ?_, fun _ => ?_⟩
          · obtain ⟨e, hmem⟩ := h.2
            rcases List.mem_append.1 hmem with hfirst | hlast
            · exact hnone ⟨e, hfirst⟩
            · cases List.mem_singleton.1 hlast
          · refine hs.of_others (show _ = s.accounts.users.replace row from husers) hteams fun m hm => ?_
            obtain ⟨hin, hother⟩ := Table.mem_delete.1 hm
            rw [hmemberships] at hin
            refine ⟨hin, ?_⟩
            rw [hid]
            simpa using hother
    · rw [if_neg hreassigns]
      have hstays : row.organizationId = target.organizationId := by
        rw [horg]
        cases hnew : req.organizationId with
        | none => rfl
        | some organizationId => simpa [hnew] using hreassigns
      have hconsistent : s'.1.Consistent := hs.of_stays htarget hid hstays husers hteams hmemberships
      exact .pure ⟨fun _ h => hnone h.2, fun _ => hconsistent⟩
  · obtain ⟨hnone, hsame⟩ := h
    change s'.1 = s at hsame
    rw [hsame]
    exact hearly _ hnone

end UpdateUser

/-! ## Sessions -/

/-- A request to the user or team handlers and what it was answered. -/
abbrev OrgExchange := Exchange OrgStore OrgRequest ApiError OrgResponse

/-- The request adds a stranger, or moves a member whose memberships cannot be deleted. -/
def Misplaces (s : OrgWorld) (x : OrgExchange) : Prop :=
  match x.request.call with
  | .addMember teamId req => s.AddsStranger x.request.claims teamId req ∧ ¬ TeamsFail x.steps
  | .updateUser id _ => s.IsMember id ∧ RemovalFails id x.steps
  | _ => False

section Sessions

variable {state : AuthState} {env : Environment OrgStore} {s : OrgWorld} {claims : Claims}

theorem addMember_serves (hs : s.Consistent) (teamId : Uuid) (req : AddMemberRequest) :
    (orgRecord state).Guarantees env (s, []) (OrgRequest.serve ⟨claims, .addMember teamId req⟩)
      fun _ s' => s'.1.Consistent ↔ ¬ (s.AddsStranger claims teamId req ∧ ¬ TeamsFail s'.2) :=
  .embed (.bind (addMember_consistent_iff hs) (fun _ _ h => .pure h) fun _ _ h => h)

theorem updateUser_serves (hs : s.Consistent) (id : Uuid) (req : UpdateUserRequest) :
    (orgRecord state).Guarantees env (s, []) (OrgRequest.serve ⟨claims, .updateUser id req⟩)
      fun _ s' => s'.1.Consistent ↔ ¬ (s.IsMember id ∧ RemovalFails id s'.2) :=
  .embed (.bind (updateUser_consistent_iff hs) (fun _ _ h => .pure h) fun _ _ h => h)

theorem keepsLinks_serves {r : OrgRequest} (hkeeps : r.call.keepsLinks = true) (hs : s.Consistent) :
    (orgWorld state).Guarantees env s r.serve fun _ s' => OrgWorld.Consistent s' :=
  (Monitor.Guarantees.related (OrgRequest.serve_only hkeeps)
    (R := fun s s' : OrgWorld => s.Consistent → s'.Consistent) (fun _ h => h)
    (fun hfirst hsecond h => hsecond (hfirst h))
    fun _ _ hop haccepts h => h.next hop haccepts).mono fun _ _ h => h hs

theorem serve_consistent_iff (hs : s.Consistent) {x : OrgExchange}
    (hrun : x.request.serve.Runs env x.steps x.outcome) (hsafe : (orgWorld state).Safe s x.steps) :
    OrgWorld.Consistent ((orgWorld state).after s x.steps) ↔ ¬ Misplaces s x := by
  obtain ⟨⟨claims, call⟩, steps, outcome⟩ := x
  by_cases hkeeps : call.keepsLinks = true
  · have hnot : ¬ Misplaces s ⟨⟨claims, call⟩, steps, outcome⟩ := by
      cases call <;> first | exact id | cases hkeeps
    exact ⟨fun _ => hnot, fun _ => keepsLinks_serves hkeeps hs steps outcome hrun hsafe⟩
  · cases call with
    | addMember teamId req => exact (addMember_serves hs teamId req).recorded hrun hsafe
    | updateUser id req => exact (updateUser_serves hs id req).recorded hrun hsafe
    | _ => exact absurd rfl hkeeps

/-- Every membership links a user and a team of one organization throughout a session exactly when no request adds
    a stranger or moves a member whose memberships cannot be deleted. -/
theorem memberships_consistent_iff (state : AuthState) (s : OrgWorld) (hs : s.Consistent)
    (exchanges : List OrgExchange)
    (hserved : (orgWorld state).Serves anyAnswer OrgRequest.serve s exchanges) :
    (orgWorld state).Throughout (fun _ _ s' => OrgWorld.Consistent s') s exchanges
      ↔ (orgWorld state).Throughout (fun s x _ => ¬ Misplaces s x) s exchanges :=
  hserved.throughout_iff (fun _ _ hs hrun hsafe => serve_consistent_iff hs hrun hsafe) hs

end Sessions

/-! ## A stranger -/

/-- The users 1 and 3 of organization 10, the user 4 of organization 11, and a team of organization 10. -/
def sampleOrg : OrgWorld where
  accounts := { sampleAccounts with
    users := ⟨[sampleUser 1 "root" "super_admin", sampleUser 3 "ann" "user",
      { sampleUser 4 "bob" "user" with organizationId := some 11 }], by decide⟩ }
  teams := ⟨[⟨5, 10, "core", none, none, 0⟩], by decide⟩
  memberships := .empty

/-- The super admin adds the user 3. -/
def addsAnn : OrgExchange where
  request := ⟨⟨1, 10, "super_admin"⟩, .addMember 5 ⟨3, "member"⟩⟩
  steps := [⟨.inr (.addMember 5 3 "member"), .ok ⟨3, 5, "member"⟩⟩]
  outcome := .ok (.membership ⟨3, 5, "member"⟩)

/-- The super admin adds the user 4. -/
def addsBob : OrgExchange where
  request := ⟨⟨1, 10, "super_admin"⟩, .addMember 5 ⟨4, "member"⟩⟩
  steps := [⟨.inr (.addMember 5 4 "member"), .ok ⟨4, 5, "member"⟩⟩]
  outcome := .ok (.membership ⟨4, 5, "member"⟩)

theorem sampleOrg_consistent : sampleOrg.Consistent := by
  intro m hm
  cases hm

theorem memberships_consistent_sample :
    (orgWorld sampleAuthState).Throughout (fun _ _ s' => OrgWorld.Consistent s') sampleOrg [addsAnn] := by
  have hserved : (orgWorld sampleAuthState).Serves anyAnswer OrgRequest.serve sampleOrg [addsAnn] :=
    ⟨⟨.op trivial (.pure _), ⟨rfl, rfl, rfl⟩, trivial⟩, trivial⟩
  refine (memberships_consistent_iff sampleAuthState sampleOrg sampleOrg_consistent _ hserved).2 ⟨?_, trivial⟩
  rintro ⟨⟨-, -, user, huser, team, hteam, hid, -, hother⟩, -⟩
  have hann : sampleUser 3 "ann" "user" ∈ sampleOrg.accounts.users := .tail _ (.head _)
  obtain rfl := Table.eq_of_key huser hann hid
  obtain rfl := List.mem_singleton.1 hteam
  exact hother rfl

theorem memberships_not_consistent :
    ¬ ∀ (state : AuthState) (s : OrgWorld) (exchanges : List OrgExchange), s.Consistent →
        (orgWorld state).Serves anyAnswer OrgRequest.serve s exchanges →
        (orgWorld state).Throughout (fun _ _ s' => OrgWorld.Consistent s') s exchanges := by
  intro hall
  have hserved : (orgWorld sampleAuthState).Serves anyAnswer OrgRequest.serve sampleOrg [addsBob] :=
    ⟨⟨.op trivial (.pure _), ⟨rfl, rfl, rfl⟩, trivial⟩, trivial⟩
  have hconsistent := (hall sampleAuthState sampleOrg [addsBob] sampleOrg_consistent hserved).1
  have hbob : ({ sampleUser 4 "bob" "user" with organizationId := some 11 } : User) ∈ sampleOrg.accounts.users :=
    .tail _ (.tail _ (.head _))
  have hapart : OrgWorld.Apart ((orgWorld sampleAuthState).after sampleOrg addsBob.steps) 4 5 :=
    ⟨_, hbob, _, List.mem_singleton_self _, rfl, rfl, by decide⟩
  exact hapart.not_linked (m := ⟨4, 5, "member"⟩) (hconsistent _ (Table.mem_upsert.2 (.inr rfl)))

end Godwit
