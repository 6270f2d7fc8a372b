import Godwit.Admin.Proofs.PasswordReuse

set_option autoImplicit false

/-! # A password change that fails

A change writes in four statements, each of which commits by itself: the user, the push and the purge of the
history, the sessions. A failure up to the first one changes nothing. A later one keeps what the statements before
it have done, so the new password can be there without its history and with the old sessions. -/

namespace Godwit

section Failure

variable {state : AuthState} {defaults : RowDefaults} {userId : Uuid} {newPassword : String}
  {s : AccountTables defaults} {before : List (Step AccountStore)}

/-- The tables that a password change writes are as before. -/
structure AccountTables.Unchanged (s s' : AccountTables defaults) : Prop where
  users : s'.accounts.users = s.accounts.users
  history : s'.history = s.history
  refreshTokens : s'.accounts.refreshTokens = s.accounts.refreshTokens

/-- Of the users only the password columns of one have changed. -/
def SetsPassword (userId : Uuid) (hash : String) (users users' : UserTable) : Prop :=
  ∃ old row, users.find? userId = some old ∧ users' = users.replace row
    ∧ row = { old with
        passwordHash := some hash
        passwordChangedAt := row.passwordChangedAt
        passwordExpiresAt := row.passwordExpiresAt
        mustChangePassword := false }

/-- Once the password is set, one of three statements has failed and the ones before it have been done. -/
inductive FailsAfterSet (state : AuthState) (userId : Uuid) (hash : String) (history : PasswordHistory defaults)
    (steps : List (Step AccountStore)) : PasswordHistory defaults → Prop
  | push (e : PasteurError) (h : ⟨.pushPassword userId hash, .error e⟩ ∈ steps) :
      FailsAfterSet state userId hash history steps history
  | purge (e : PasteurError) (h : ⟨.purgePasswords userId state.maxReuse, .error e⟩ ∈ steps) :
      FailsAfterSet state userId hash history steps (history.push userId hash)
  | deleteSessions (e : PasteurError) (h : ⟨.deleteRefreshTokensOf userId, .error e⟩ ∈ steps) :
      FailsAfterSet state userId hash history steps
        ((history.push userId hash).purgeOlderThan userId state.maxReuse)

/-- What a failed change leaves behind. -/
structure FailedChange (state : AuthState) (userId : Uuid) (s s' : AccountTables defaults)
    (steps : List (Step AccountStore)) : Prop where
  sessions : s'.accounts.refreshTokens = s.accounts.refreshTokens
  unset : steps.filterMap passwordSet = [] → s.Unchanged s'
  set : steps.filterMap passwordSet ≠ [] → ∃ hash, SetsPassword userId hash s.accounts.users s'.accounts.users
    ∧ FailsAfterSet state userId hash s.history steps s'.history

theorem FailedChange.of_unset (hsteps : before.filterMap passwordSet = []) :
    FailedChange state userId s s before :=
  ⟨rfl, fun _ => ⟨rfl, rfl, rfl⟩, fun h => absurd hsteps h⟩

theorem passwordExpiry_idle {env : Environment AccountStore} (hbefore : before.filterMap passwordSet = []) :
    (accountTables state defaults).recording.Guarantees env (s, before) (passwordExpiry state)
      fun out s' => (∃ expiresAt, out = .ok expiresAt) ∧ s'.1 = s ∧ s'.2.filterMap passwordSet = [] := by
  unfold passwordExpiry
  split
  · exact .perform fun now _ _ => .pure ⟨⟨_, rfl⟩, rfl, by simpa [passwordSet] using hbefore⟩
  · exact .pure ⟨⟨_, rfl⟩, rfl, hbefore⟩

/-- The statements after the password is set: whichever fails, the ones before it have been done. -/
theorem finishPasswordChange_failed {env : Environment AccountStore} {hash : String} {user : User}
    {expiresAt : Option Timestamp} (hsteps : before.filterMap passwordSet ≠ [])
    (hset : SetsPassword userId hash s.accounts.users (s.accounts.users.replace user)) :
    (accountTables state defaults).recording.Guarantees env
      (s.next state ⟨.updatePassword userId hash expiresAt, .ok user⟩, before)
      (do
        orCoreError (← askAccounts (.pushPassword userId hash))
        orCoreError (← askAccounts (.purgePasswords userId state.maxReuse))
        let _ ← orCoreError (← askAccounts (.deleteRefreshTokensOf userId)))
      fun out s' => ∀ e : ApiError, out = .error e → FailedChange state userId s s'.1 s'.2 := by
  refine .perform fun pushed _ _ => .ofExcept_bind (fun e he _ _ => ?_) fun _ hpushed => ?_
  · -- the push fails
    cases pushed with
    | ok done => cases he
    | error e =>
        refine ⟨rfl, fun hnone => absurd hnone (by simp [hsteps]), fun _ => ⟨hash, hset, .push e ?_⟩⟩
        exact List.mem_append_right _ (List.mem_singleton_self _)
  · obtain rfl : pushed = .ok () := by
      cases pushed with
      | ok done => rfl
      | error e => cases hpushed
    refine .perform fun purged _ _ => .ofExcept_bind (fun e he _ _ => ?_) fun _ hpurged => ?_
    · -- the purge fails
      cases purged with
      | ok done => cases he
      | error e =>
          refine ⟨rfl, fun hnone => absurd hnone (by simp [hsteps]), fun _ => ⟨hash, hset, .purge e ?_⟩⟩
          exact List.mem_append_right _ (List.mem_singleton_self _)
    · obtain rfl : purged = .ok () := by
        cases purged with
        | ok done => rfl
        | error e => cases hpurged
      refine .perform fun deleted _ _ => .ofExcept_bind (fun e he _ _ => ?_) fun _ _ => ?_
      · -- the deletion of the sessions fails
        cases deleted with
        | ok count => cases he
        | error e =>
            refine ⟨rfl, fun hnone => absurd hnone (by simp [hsteps]), fun _ => ⟨hash, hset, .deleteSessions e ?_⟩⟩
            exact List.mem_append_right _ (List.mem_singleton_self _)
      · exact .pure fun e he => by cases he

theorem doPasswordChange_leaves {env : Environment AccountStore} (hbefore : before.filterMap passwordSet = []) :
    (accountTables state defaults).recording.Guarantees env (s, before) (doPasswordChange state userId newPassword)
      fun out s' => ∀ e, out = .error e → FailedChange state userId s s'.1 s'.2 := by
  refine .perform fun fetched _ _ => ?_
  have hread : (before ++ [(⟨.getLastPasswords userId state.maxReuse, fetched⟩ : Step AccountStore)]).filterMap
      passwordSet = [] := by
    simpa [passwordSet] using hbefore
  refine .ofExcept_bind (fun _ _ _ _ => .of_unset hread) fun history _ => ?_
  refine .ofExcept_bind (fun _ _ _ _ => .of_unset hread) fun _ _ => ?_
  refine .perform fun hash _ _ => ?_
  refine .bind (passwordExpiry_idle (s := s) ?_) (fun expiresAt s' h => ?_) fun e s' h => ?_
  · simpa [passwordSet] using hread
  · obtain ⟨-, hs, hquiet⟩ := h
    obtain ⟨s', steps⟩ := s'
    obtain rfl : s' = s := hs
    refine .perform fun updated _ haccepts => ?_
    cases updated with
    | error e =>
        refine .throw fun _ _ => .of_unset ?_
        simpa [passwordSet] using hquiet
    | ok user =>
        obtain ⟨old, hold, hrow⟩ := haccepts
        refine finishPasswordChange_failed (by simp [passwordSet]) ⟨old, user, hold, rfl, ?_⟩
        have hexpires : user.passwordExpiresAt = expiresAt := by rw [hrow]
        rw [hexpires]
        exact hrow
  · exact absurd h.1 (by rintro ⟨_, h⟩; cases h)

end Failure

/-- A change that returns an error leaves the sessions as they were, and the users and the history as well unless
    the password had been set. Then the user has the new one, and the history is as the statements before the
    failed one have left it. -/
theorem doPasswordChange_failed (state : AuthState) (defaults : RowDefaults) (s : AccountTables defaults)
    (userId : Uuid) (newPassword : String) (env : Environment AccountStore) (tr : List (Step AccountStore))
    (e : ApiError) (hrun : (doPasswordChange state userId newPassword).Runs env tr (.error e))
    (hsafe : (accountTables state defaults).Safe s tr) :
    FailedChange state userId s ((accountTables state defaults).after s tr) tr :=
  (doPasswordChange_leaves rfl).recorded hrun hsafe e rfl

/-! ## A failed push -/

/-- The password of the user 3 is set, and the connection is lost before the history knows of it. -/
def failedPush : List (Step AccountStore) :=
  [⟨.getLastPasswords 3 5, .ok []⟩, ⟨.hashPassword "new", "$argon2id$new"⟩,
    ⟨.updatePassword 3 "$argon2id$new" none, .ok (sampleUserWith "new")⟩,
    ⟨.pushPassword 3 "$argon2id$new", .error (.database "connection closed")⟩]

theorem failedPush_runs : (doPasswordChange sampleAuthState 3 "new").Runs anyAnswer failedPush
    (.error (.core (.database "connection closed"))) := by
  have hpolicy : orFail ((validatePassword sampleAuthState "new" []).mapError fun e => ApiError.badRequest e.toText)
      = .pure () := by
    rw [show validatePassword sampleAuthState "new" [] = .ok () by decide]
    rfl
  unfold doPasswordChange
  refine .perform trivial (Program.runs_bind_iff.2 (.inr ⟨[], [], _, rfl, .pure _, ?_⟩))
  rw [hpolicy]
  exact .op trivial (.op trivial (.op trivial (.throw _)))

theorem failedPush_safe : (accountTables sampleAuthState sampleDefaults).Safe samplePasswordTables failedPush :=
  ⟨rfl, sampleAuthState_verify "new", ⟨sampleUser 3 "ann" "user", rfl, rfl⟩, trivial, trivial⟩

theorem doPasswordChange_failed_push :
    FailedChange sampleAuthState 3 samplePasswordTables
      ((accountTables sampleAuthState sampleDefaults).after samplePasswordTables failedPush) failedPush :=
  doPasswordChange_failed sampleAuthState sampleDefaults samplePasswordTables 3 "new" anyAnswer failedPush _
    failedPush_runs failedPush_safe

/-- The request fails, and the user has the new password. -/
theorem doPasswordChange_not_atomic :
    ¬ ∀ (s : AccountTables sampleDefaults) (userId : Uuid) (newPassword : String) (tr : List (Step AccountStore))
      (e : ApiError), (doPasswordChange sampleAuthState userId newPassword).Runs anyAnswer tr (.error e) →
      (accountTables sampleAuthState sampleDefaults).Safe s tr →
      s.Unchanged ((accountTables sampleAuthState sampleDefaults).after s tr) := by
  intro h
  have husers := (h samplePasswordTables 3 "new" failedPush _ failedPush_runs failedPush_safe).users
  have hhash := congrArg (fun users => (Table.find? users 3).bind User.passwordHash) husers
  exact absurd hhash (by decide)

end Godwit
