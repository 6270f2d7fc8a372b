import Godwit.Lib.Session
import Godwit.Admin.Sessions
import Godwit.Admin.Proofs.ApiKeys

set_option autoImplicit false

/-! # What user administration may touch

Each of the four handlers acts on one user. `ActsOn` says what is left to show of it: the target was
within the reach of the caller before the request and is so after it, and the caller's own row keeps its
role. Everything else follows for every session. -/

namespace Godwit

/-- The caller of a request to administer users. -/
def AccountRequest.userAdmin : AccountRequest → Option Claims
  | .createUser claims _ => some claims
  | .updateUser claims _ _ => some claims
  | .deleteUser claims _ => some claims
  | .adminResetPassword claims _ _ => some claims
  | _ => none

/-- A request to the account handlers and what it was answered. -/
abbrev AccountExchange := Exchange AccountStore AccountRequest ApiError AccountResponse

/-- The rows that satisfy a condition are the same before and after. -/
def SameUsers (P : User → Prop) (s s' : AccountWorld) : Prop :=
  ∀ user, P user → (user ∈ s'.users ↔ user ∈ s.users)

/-- What one request of this caller leaves alone. -/
structure UsersProtected (claims : Claims) (s s' : AccountWorld) : Prop where
  superAdmins : claims.role ≠ "super_admin" → SameUsers (fun user => user.role = "super_admin") s s'
  foreign : claims.role ≠ "super_admin" →
    SameUsers (fun user => user.organizationId ≠ some claims.organizationId) s s'
  self : ∀ user ∈ s.users, user.id = claims.userId →
    ∃ user' ∈ s'.users, user'.id = user.id ∧ user'.role = user.role

/-- A user whom an org admin with these claims may change. -/
def WithinReach (claims : Claims) (user : User) : Prop :=
  user.role ≠ "super_admin" ∧ user.organizationId = some claims.organizationId

/-- Only the row of one user changes, within the reach of the caller, and the caller's own row keeps its
    role. -/
structure ActsOn (claims : Claims) (id : Uuid) (s s' : AccountWorld) : Prop where
  others : SameUsers (fun user => user.id ≠ id) s s'
  reach : claims.role ≠ "super_admin" → ∀ user ∈ s.users, user.id = id → WithinReach claims user
  reach' : claims.role ≠ "super_admin" → ∀ user ∈ s'.users, user.id = id → WithinReach claims user
  self : id = claims.userId → ∀ user ∈ s.users, user.id = id →
    ∃ user' ∈ s'.users, user'.id = id ∧ user'.role = user.role

theorem ActsOn.protected {claims : Claims} (id : Uuid) {s s' : AccountWorld}
    (h : ActsOn claims id s s') : UsersProtected claims s s' := by
  -- A row out of reach is neither the old nor the new row of the target.
  have hout : claims.role ≠ "super_admin" → ∀ user, ¬ WithinReach claims user →
      (user ∈ s'.users ↔ user ∈ s.users) := by
    intro hrole user hreach
    by_cases hid : user.id = id
    · constructor
      · intro hmem
        exact absurd (h.reach' hrole user hmem hid) hreach
      · intro hmem
        exact absurd (h.reach hrole user hmem hid) hreach
    · exact h.others user hid
  refine ⟨fun hrole user hsuper => hout hrole user fun hreach => hreach.1 hsuper,
    fun hrole user horg => hout hrole user fun hreach => horg hreach.2, fun user hmem hself => ?_⟩
  by_cases hid : user.id = id
  · rw [hid]
    exact h.self (hid.symm.trans hself) user hmem hid
  · exact ⟨user, (h.others user hid).2 hmem, rfl, rfl⟩

theorem UsersProtected.refl (claims : Claims) (s : AccountWorld) : UsersProtected claims s s :=
  ⟨fun _ _ _ => Iff.rfl, fun _ _ _ => Iff.rfl, fun user hmem _ => ⟨user, hmem, rfl, rfl⟩⟩

theorem SameUsers.trans {P : User → Prop} {s₁ s₂ s₃ : AccountWorld} (h : SameUsers P s₁ s₂)
    (h' : SameUsers P s₂ s₃) : SameUsers P s₁ s₃ :=
  fun user hP => (h' user hP).trans (h user hP)

/-! ## The checks -/

section Checks

variable {claims : Claims} {role : Role} {target : User}

theorem role_of_requireRole {allowed : List Role} (h : requireRole claims allowed = .ok role) :
    claims.role = role.asStr ∧ role ∈ allowed := by
  unfold requireRole at h
  split at h
  · cases h
  case h_2 role' hrole =>
    split_ifs at h with hallowed
    cases h
    exact ⟨Role.fromStr_eq_some_iff.1 hrole, hallowed⟩

theorem not_superAdmin (hrole : claims.role = role.asStr) (hnot : claims.role ≠ "super_admin") :
    role ≠ .superAdmin := by
  rintro rfl
  exact hnot hrole

theorem withinReach_of_checks (hrole : claims.role = role.asStr) (hnot : claims.role ≠ "super_admin")
    (horg : checkSameOrg role claims target.organizationId = .ok ())
    (hsuper : checkNotActingOnSuperAdmin role target.role = .ok ()) : WithinReach claims target := by
  have hplain := not_superAdmin hrole hnot
  unfold checkSameOrg at horg
  unfold checkNotActingOnSuperAdmin at hsuper
  split_ifs at horg hsuper with h₁ h₂
  exact ⟨fun h => h₂ ⟨hplain, h⟩, by_contra fun h => h₁ ⟨hplain, h⟩⟩

theorem newRole_of_check {newRole : Option String} (hrole : claims.role = role.asStr)
    (hnot : claims.role ≠ "super_admin") (h : checkNewRole role newRole = .ok ())
    (htarget : target.role ≠ "super_admin") : newRole.getD target.role ≠ "super_admin" := by
  cases newRole with
  | none => exact htarget
  | some roleStr =>
      unfold checkNewRole at h
      dsimp only at h
      split at h
      · cases h
      · split_ifs at h with hsuper
        exact fun heq => hsuper ⟨heq, not_superAdmin hrole hnot⟩

end Checks

/-! ## The handlers -/

section Handlers

variable {state : AuthState} {env : Environment AccountStore} {s : AccountWorld} {claims : Claims}
  {α β : Type} {Q : Except ApiError β → AccountWorld → Prop}

theorem orCoreError_bind {M : Monitor AccountStore} {w : M.State} {r : Except PasteurError α}
    {f : α → AccountApp β} {Q : Except ApiError β → M.State → Prop}
    (herror : ∀ e, r = .error e → Q (.error (.core e)) w)
    (hf : ∀ a, r = .ok a → M.Guarantees env w (f a) Q) :
    M.Guarantees env w (orCoreError r >>= f) Q := by
  cases r with
  | ok a => exact hf a rfl
  | error e => exact .throw (herror e rfl)

/-- The handlers that act on an existing user read it and check that it is within reach. -/
theorem targetUser_bind {id : Uuid} {role : Role} {f : User → AccountApp β} (hrole : claims.role = role.asStr)
    (herror : ∀ e, Q (.error e) s)
    (hf : ∀ target, s.users.find? id = some target →
      (claims.role ≠ "super_admin" → WithinReach claims target) →
      (accountWorld state).Guarantees env s (f target) Q) :
    (accountWorld state).Guarantees env s
      (do let target ← orCoreError (← askAccounts (.getUserById id))
          orFail (checkSameOrg role claims target.organizationId)
          orFail (checkNotActingOnSuperAdmin role target.role)
          f target) Q := by
  refine .perform fun answer _ haccepts => orCoreError_bind (fun e _ => herror _) fun target hanswer => ?_
  subst hanswer
  have hfind : some target = s.users.find? id := haccepts
  refine .ofExcept_bind (fun e _ => herror e) fun _ horg => ?_
  refine .ofExcept_bind (fun e _ => herror e) fun _ hsuper => ?_
  exact hf target hfind.symm fun hnot => withinReach_of_checks hrole hnot horg hsuper

theorem createUser_protects (req : CreateUserRequest) :
    (accountWorld state).Guarantees env s (createUser claims req)
      fun _ s' => UsersProtected claims s s' := by
  refine .ofExcept_bind (fun _ _ => .refl _ _) fun callerRole hcaller => ?_
  obtain ⟨hrole, -⟩ := role_of_requireRole hcaller
  refine .ofExcept_bind (fun _ _ => .refl _ _) fun role hnew => ?_
  refine .ofExcept_bind (fun _ _ => .refl _ _) fun _ hallowed => ?_
  refine .perform fun created _ haccepts => orCoreError_bind (fun e he => ?_) fun user hcreated => ?_
  · subst he
    exact .refl _ _
  · subst hcreated
    obtain ⟨hfresh, -, huser⟩ := haccepts
    have hmem : ∀ other, other ∈ s.users.insert user ↔ other ∈ s.users ∨ other = user := fun other =>
      Table.mem_insert_of_fresh hfresh
    have hnone := Table.find?_eq_none_iff.1 hfresh
    refine .pure (ActsOn.protected user.id ⟨fun other hother => ?_, fun _ other hold hid => ?_,
      fun hnot other hin hid => ?_, fun _ other hold hid => ?_⟩)
    · refine (hmem other).trans ⟨?_, .inl⟩
      rintro (hin | rfl)
      · exact hin
      · exact absurd rfl hother
    · exact absurd hid (hnone other hold)
    · rcases (hmem other).1 hin with hold | rfl
      · exact absurd hid (hnone other hold)
      · refine ⟨?_, by rw [huser]⟩
        have hroleText : other.role = req.role := by
          split at hnew
          case h_1 role' hfrom =>
            cases hnew
            rw [huser]
            exact (Role.fromStr_eq_some_iff.1 hfrom).symm
          case h_2 => cases hnew
        split_ifs at hallowed with hsuper
        rw [hroleText]
        exact fun heq => hsuper ⟨heq, not_superAdmin hrole hnot⟩
    · exact absurd hid (hnone other hold)

theorem deleteUser_protects (id : Uuid) :
    (accountWorld state).Guarantees env s (deleteUser claims id)
      fun _ s' => UsersProtected claims s s' := by
  refine .ofExcept_bind (fun _ _ => .refl _ _) fun role hcaller => ?_
  obtain ⟨hrole, -⟩ := role_of_requireRole hcaller
  refine .ofExcept_bind (fun _ _ => .refl _ _) fun _ hself => ?_
  split_ifs at hself with hne
  refine targetUser_bind hrole (fun _ => .refl _ _) fun target hfind hreach => ?_
  obtain ⟨htarget, htargetid⟩ := Table.find?_eq_some_iff.1 hfind
  refine .perform fun executed _ _ => ?_
  cases executed with
  | error e => exact .throw (.refl _ _)
  | ok done =>
      have hmem : ∀ user, user ∈ s.users.delete (fun user => user.id = id) ↔ user ∈ s.users ∧ user.id ≠ id := by
        intro user
        rw [Table.mem_delete]
        simp
      refine .pure (ActsOn.protected id ⟨fun user hid => ?_, fun hnot user hin hid => ?_,
        fun _ user hin hid => ?_, fun hid => ?_⟩)
      · exact (hmem user).trans ⟨And.left, fun hin => ⟨hin, hid⟩⟩
      · rw [Table.eq_of_key hin htarget (hid.trans htargetid.symm)]
        exact hreach hnot
      · exact absurd hid ((hmem user).1 hin).2
      · exact absurd hid.symm hne

/-- A row takes the place of the target, within reach, and with the role of a caller who is the target. -/
theorem ActsOn.of_replaced {s' : AccountWorld} {target row : User} (htarget : target ∈ s.users)
    (hid : row.id = target.id) (hreach : claims.role ≠ "super_admin" → WithinReach claims target)
    (hreach' : claims.role ≠ "super_admin" → WithinReach claims row)
    (hself : target.id = claims.userId → row.role = target.role)
    (husers : s'.users = s.users.replace row) : ActsOn claims target.id s s' := by
  have honly : ∀ user ∈ s.users, user.id = target.id → user = target := fun user hin hsame =>
    Table.eq_of_key hin htarget hsame
  have hmem : ∀ user, user ∈ s'.users ↔ (user ∈ s.users ∧ user.id ≠ target.id) ∨ user = row := by
    intro user
    rw [husers, Table.mem_replace, hid]
    exact or_congr_right ⟨And.left, fun heq => ⟨heq, target, htarget, rfl⟩⟩
  refine ⟨fun user hne => (hmem user).trans ⟨?_, fun hin => .inl ⟨hin, hne⟩⟩, fun hnot user hin hsame => ?_,
    fun hnot user hin hsame => ?_, fun hcaller user hin hsame => ⟨row, (hmem row).2 (.inr rfl), hid, ?_⟩⟩
  · rintro (⟨hin, -⟩ | rfl)
    · exact hin
    · exact absurd hid hne
  · rw [honly user hin hsame]
    exact hreach hnot
  · rcases (hmem user).1 hin with ⟨-, hne⟩ | rfl
    · exact absurd hsame hne
    · exact hreach' hnot
  · rw [honly user hin hsame]
    exact hself hcaller

theorem updateUser_protects (id : Uuid) (req : UpdateUserRequest) :
    (accountWorld state).Guarantees env s (updateUser claims id req)
      fun _ s' => UsersProtected claims s s' := by
  refine .ofExcept_bind (fun _ _ => .refl _ _) fun role hcaller => ?_
  obtain ⟨hrole, -⟩ := role_of_requireRole hcaller
  refine .ofExcept_bind (fun _ _ => .refl _ _) fun _ hself => ?_
  split_ifs at hself with hownRole
  refine targetUser_bind hrole (fun _ => .refl _ _) fun target hfind hreach => ?_
  obtain ⟨htarget, rfl⟩ := Table.find?_eq_some_iff.1 hfind
  refine .ofExcept_bind (fun _ _ => .refl _ _) fun _ horg => ?_
  split_ifs at horg with hmoves
  refine .ofExcept_bind (fun _ _ => .refl _ _) fun _ hnewRole => ?_
  have hupdated : (accountWorld state).Guarantees env s
      (updateUserRow target.id req.name req.role req.organizationId)
      fun _ s' => UsersProtected claims s s' := by
    refine .perform fun answer _ haccepts => orCoreError_bind (fun _ _ => .refl _ _) fun current hcurrent => ?_
    subst hcurrent
    have hsame : some current = s.users.find? target.id := haccepts
    rw [hfind] at hsame
    cases hsame
    refine .perform fun updated _ haccepts => ?_
    cases updated with
    | error e => exact .throw (.refl _ _)
    | ok row =>
        obtain ⟨old, hold, hrow⟩ := haccepts
        have hold' : s.users.find? target.id = some old := hold
        rw [hfind] at hold'
        cases hold'
        refine .pure (ActsOn.protected target.id (.of_replaced htarget (by rw [hrow]) hreach
          (fun hnot => ?_) (fun hcaller => ?_) rfl))
        · -- only a super admin moves a user to another organization
          have hnone : req.organizationId = none := by
            have hplain := not_superAdmin hrole hnot
            simpa [hplain] using hmoves
          rw [hrow]
          exact ⟨newRole_of_check hrole hnot hnewRole (hreach hnot).1, by
            simpa [hnone] using (hreach hnot).2⟩
        · have hkeeps : req.role = none := by simpa [hcaller] using hownRole
          rw [hrow]
          simp [hkeeps]
  refine .bind hupdated (fun updated s' hprotected => ?_) fun _ _ hprotected => hprotected
  split
  · refine .perform fun executed _ _ => orCoreError_bind (fun _ _ => ?_) fun _ _ => ?_
    · cases executed <;> exact hprotected
    · cases executed <;> exact .pure hprotected
  · exact .pure hprotected

/-! ## Password resets -/

/-- The operations of a password change of this user. -/
def PasswordOp (id : Uuid) : AccountOp → Prop
  | .now | .hashPassword _ | .getLastPasswords _ _ | .pushPassword _ _ | .purgePasswords _ _
  | .deleteRefreshTokensOf _ => True
  | .updatePassword userId _ _ => userId = id
  | .setMustChange userId _ => userId = id
  | _ => False

/-- Only what belongs to the password of this user changes. -/
structure KeepsUser (id : Uuid) (s s' : AccountWorld) : Prop where
  others : SameUsers (fun user => user.id ≠ id) s s'
  kept : ∀ user ∈ s.users, user.id = id → ∃ user' ∈ s'.users, user'.toUserRecord = user.toUserRecord

theorem KeepsUser.of_users {id : Uuid} {s s' : AccountWorld} (h : s'.users = s.users) :
    KeepsUser id s s' :=
  ⟨fun user _ => by rw [h], fun user hmem _ => ⟨user, by rwa [h], rfl⟩⟩

theorem KeepsUser.refl (id : Uuid) (s : AccountWorld) : KeepsUser id s s := .of_users rfl

theorem KeepsUser.trans {id : Uuid} {s₁ s₂ s₃ : AccountWorld} (h : KeepsUser id s₁ s₂)
    (h' : KeepsUser id s₂ s₃) : KeepsUser id s₁ s₃ := by
  refine ⟨h.others.trans h'.others, fun user hmem hid => ?_⟩
  obtain ⟨user₂, hmem₂, hrecord⟩ := h.kept user hmem hid
  obtain ⟨user₃, hmem₃, hrecord'⟩ := h'.kept user₂ hmem₂ (by rw [hrecord]; exact hid)
  exact ⟨user₃, hmem₃, hrecord'.trans hrecord⟩

/-- An update of the user's row that leaves its record alone. -/
theorem KeepsUser.of_updated {id : Uuid} {change : User → User → Prop}
    (hchange : ∀ old row, change old row → row.toUserRecord = old.toUserRecord)
    {updated : Except PasteurError User} (haccepts : FetchRow (s.UpdatesUser id change) updated) :
    KeepsUser id s (s.updateUsers updated) := by
  cases updated with
  | error e => exact .refl id s
  | ok row =>
      obtain ⟨old, hold, hrow⟩ := haccepts
      obtain ⟨hmem, rfl⟩ := Table.find?_eq_some_iff.1 hold
      have hrecord := hchange old row hrow
      have hid : row.id = old.id := by rw [hrecord]
      refine ⟨fun user hne => ?_, fun user hin hsame => ⟨row, ?_, ?_⟩⟩
      · refine Table.mem_replace.trans ⟨?_, fun hin => .inl ⟨hin, by rw [hid]; exact hne⟩⟩
        rintro (⟨hin, -⟩ | ⟨rfl, -⟩)
        · exact hin
        · exact absurd hid hne
      · exact Table.mem_replace.2 (.inr ⟨rfl, old, hmem, hid.symm⟩)
      · rw [hrecord, Table.eq_of_key hin hmem hsame]

theorem PasswordOp.keepsUser {id : Uuid} {step : Step AccountStore} (h : PasswordOp id step.op)
    (haccepts : s.answers state step.op step.answer) : KeepsUser id s (s.next state step) := by
  obtain ⟨o, answer⟩ := step
  cases o with
  | updatePassword userId hash expiresAt =>
      cases (h : userId = id)
      exact .of_updated (fun old row hrow => by rw [hrow]) haccepts
  | setMustChange userId must =>
      cases (h : userId = id)
      exact .of_updated (fun old row hrow => by rw [hrow]) haccepts
  | now => exact .refl id s
  | hashPassword password => exact .refl id s
  | getLastPasswords userId n => exact .refl id s
  | pushPassword userId hash => cases answer <;> exact .of_users rfl
  | purgePasswords userId keep => cases answer <;> exact .of_users rfl
  | deleteRefreshTokensOf userId => cases answer <;> exact .of_users rfl
  | _ => exact h.elim

theorem doPasswordChange_only (id : Uuid) (newPassword : String) :
    (doPasswordChange state id newPassword).Only (PasswordOp id) := by
  refine .perform trivial fun _ => .bind (.ofExcept _) fun _ => .bind (.ofExcept _) fun _ =>
    .perform trivial fun hash => .bind ?_ fun expiresAt => ?_
  · unfold passwordExpiry
    split
    · exact .perform trivial fun _ => trivial
    · exact trivial
  · refine .perform rfl fun _ => .bind (.ofExcept _) fun _ => ?_
    refine .perform trivial fun _ => .bind (.ofExcept _) fun _ => ?_
    refine .perform trivial fun _ => .bind (.ofExcept _) fun _ => ?_
    exact .perform trivial fun _ => .bind (.ofExcept _) fun _ => trivial

theorem adminResetPassword_protects (userId : Uuid) (newPassword : String) :
    (accountWorld state).Guarantees env s (adminResetPassword state claims userId newPassword)
      fun _ s' => UsersProtected claims s s' := by
  refine .ofExcept_bind (fun _ _ => .refl _ _) fun role hcaller => ?_
  obtain ⟨hrole, -⟩ := role_of_requireRole hcaller
  refine .ofExcept_bind (fun _ _ => .refl _ _) fun _ hself => ?_
  split_ifs at hself with hne
  refine targetUser_bind hrole (fun _ => .refl _ _) fun target hfind hreach => ?_
  obtain ⟨htarget, rfl⟩ := Table.find?_eq_some_iff.1 hfind
  have honly : (do
      doPasswordChange state target.id newPassword
      let _ ← orCoreError (← askAccounts (.setMustChange target.id true)) :
        AccountApp Unit).Only (PasswordOp target.id) :=
    .bind (doPasswordChange_only target.id newPassword) fun _ =>
      .perform rfl fun _ => .bind (.ofExcept _) fun _ => trivial
  refine .mono (.related honly (KeepsUser.refl target.id) KeepsUser.trans
    fun _ _ hop haccepts => hop.keepsUser haccepts) fun _ s' hkeeps => ?_
  refine ActsOn.protected target.id ⟨hkeeps.others, fun hnot user hin hid => ?_, fun hnot user hin hid => ?_,
    fun hid => absurd hid.symm hne⟩
  · rw [Table.eq_of_key hin htarget hid]
    exact hreach hnot
  · obtain ⟨user', hin', hrecord⟩ := hkeeps.kept target htarget rfl
    have hsame : user = user' := Table.eq_of_key hin hin' (hid.trans (by rw [hrecord]))
    have hreached := hreach hnot
    unfold WithinReach at hreached ⊢
    rw [hsame, hrecord]
    exact hreached

/-! ## Sessions -/

/-- Every request to administer users leaves the protected rows alone. -/
theorem userAdmin_protects {r : AccountRequest} (h : r.userAdmin = some claims) :
    (accountWorld state).Guarantees env s (r.serve state) fun _ s' => UsersProtected claims s s' := by
  cases r with
  | createUser caller req =>
      cases h
      exact .bind (createUser_protects req) (fun _ _ hprotected => .pure hprotected) fun _ _ => id
  | updateUser caller id req =>
      cases h
      exact .bind (updateUser_protects id req) (fun _ _ hprotected => .pure hprotected) fun _ _ h => h
  | deleteUser caller id =>
      cases h
      exact .bind (deleteUser_protects id) (fun _ _ hprotected => .pure hprotected) fun _ _ h => h
  | adminResetPassword caller userId newPassword =>
      cases h
      exact .bind (adminResetPassword_protects userId newPassword)
        (fun _ _ hprotected => .pure hprotected) fun _ _ h => h
  | _ => cases h

end Handlers

/-- What a request does to the users, whoever called it. -/
def LeavesProtected (s : AccountWorld) (x : AccountExchange) (s' : AccountWorld) : Prop :=
  ∀ claims, x.request.userAdmin = some claims → UsersProtected claims s s'

/-- In every session of user administration each request protects the users it must not touch, and when no
    caller is a super admin the super admins are the same at the end. -/
theorem userAdmin_sessions_protect (state : AuthState) (s : AccountWorld) (exchanges : List AccountExchange)
    (hadmin : ∀ x ∈ exchanges, x.request.userAdmin.isSome)
    (hserved : (accountWorld state).Serves anyAnswer (AccountRequest.serve state) s exchanges) :
    (accountWorld state).Throughout LeavesProtected s exchanges
      ∧ ((∀ x ∈ exchanges, ∀ claims, x.request.userAdmin = some claims → claims.role ≠ "super_admin") →
        SameUsers (fun user => user.role = "super_admin") s
          ((accountWorld state).afterAll s exchanges)) := by
  have hthroughout : (accountWorld state).Throughout LeavesProtected s exchanges :=
    hserved.throughout (C := fun _ _ _ => True)
      (fun _ x hrun hsafe _ claims hclaims => userAdmin_protects hclaims x.steps x.outcome hrun hsafe)
      (.of_forall (fun _ _ _ => trivial) _ _)
  refine ⟨hthroughout, fun hroles => ?_⟩
  clear hserved
  induction exchanges generalizing s with
  | nil => exact fun _ _ => Iff.rfl
  | cons x rest ih =>
      obtain ⟨claims, hclaims⟩ := Option.isSome_iff_exists.1 (hadmin x List.mem_cons_self)
      have hfirst := (hthroughout.1 claims hclaims).superAdmins
        (hroles x List.mem_cons_self claims hclaims)
      exact hfirst.trans (ih _ (fun y hy => hadmin y (List.mem_cons_of_mem _ hy)) hthroughout.2
        fun y hy => hroles y (List.mem_cons_of_mem _ hy))

/-! ## A session -/

/-- Hashes that show what they hash, ASCII classes, and a policy that asks for nothing. -/
def sampleAuthState : AuthState where
  argon2 := sampleArgon2
  hashToken token := "sha256:" ++ token
  isUppercase := Char.isUpper
  isLowercase := Char.isLower
  isAlphanumeric := Char.isAlphanum
  commonPasswords := []
  minLength := 0
  requireUpper := false
  requireLower := false
  requireDigit := false
  requireSymbol := false
  maxReuse := 5
  daysToExpire := 0
  blockCommon := false
  accessTokenTtlMinutes := 15
  refreshTokenTtlDays := 7
  cookieSecure := false
  trustProxy := false
  loginCapacity := 10
  mailAppUrl := none

/-- A user of organization 10 whose password is `old`. -/
def sampleUser (id : Uuid) (email role : String) : User :=
  ⟨⟨id, some 10, email, none, role, none, none, 0⟩, some "$argon2id$old", none, none, false⟩

/-- The super admin 1 and the user 3, both of organization 10. -/
def sampleAccounts : AccountWorld where
  users := ⟨[sampleUser 1 "root" "super_admin", sampleUser 3 "ann" "user"], by decide⟩
  refreshTokens := .empty
  resetTokens := .empty
  history _ := []
  buckets _ := none
  clock := 0
  seen := []

/-- The org admin 2 renames a user. -/
def renamedByAdmin : AccountExchange where
  request := .updateUser ⟨2, 10, "org_admin"⟩ 3 ⟨some "Ann", none, none⟩
  steps := [⟨.getUserById 3, .ok (sampleUser 3 "ann" "user")⟩,
    ⟨.getUserById 3, .ok (sampleUser 3 "ann" "user")⟩,
    ⟨.updateUser 3 (some "Ann") "user" (some 10), .ok { sampleUser 3 "ann" "user" with name := some "Ann" }⟩]
  outcome := .ok (.user { sampleUser 3 "ann" "user" with name := some "Ann" }.toUserRecord)

/-- The org admin 2 tries to delete the super admin. -/
def refusedDelete : AccountExchange where
  request := .deleteUser ⟨2, 10, "org_admin"⟩ 1
  steps := [⟨.getUserById 1, .ok (sampleUser 1 "root" "super_admin")⟩]
  outcome := .error .forbidden

theorem userAdmin_session_sample :
    (accountWorld sampleAuthState).Serves anyAnswer (AccountRequest.serve sampleAuthState) sampleAccounts
        [renamedByAdmin, refusedDelete]
      ∧ (accountWorld sampleAuthState).Throughout LeavesProtected sampleAccounts
        [renamedByAdmin, refusedDelete] := by
  have hserved : (accountWorld sampleAuthState).Serves anyAnswer (AccountRequest.serve sampleAuthState)
      sampleAccounts [renamedByAdmin, refusedDelete] :=
    ⟨⟨.op trivial (.op trivial (.op trivial (.pure _))),
      rfl, rfl, ⟨sampleUser 3 "ann" "user", rfl, rfl⟩, trivial⟩,
      ⟨.op trivial (.throw _), rfl, trivial⟩, trivial⟩
  refine ⟨hserved, (userAdmin_sessions_protect _ _ _ (fun x hx => ?_) hserved).1⟩
  rcases List.mem_pair.1 hx with rfl | rfl <;> rfl

end Godwit
