import Godwit.Admin.PasswordHistory
import Godwit.Admin.Proofs.Users

set_option autoImplicit false

/-! # Reuse of passwords

A password is set by a push and a purge, and a new one is checked against a limited read. On the rows of the
table these are what `AccountWorld` says of its lists: the push adds in front, the purge and the read cut off the
same number of entries. So the hashes that are read are always those of the last passwords that were set. -/

namespace Godwit

/-! ## The statements on the rows -/

instance : Std.Total PasswordHistoryRow.newer where
  total row row' := by
    unfold PasswordHistoryRow.newer
    rcases lt_trichotomy row.createdAt row'.createdAt with hlt | heq | hlt
    · exact .inr (.inl hlt)
    · rcases BitVec.le_total row.id row'.id with hid | hid
      · exact .inr (.inr ⟨heq, hid⟩)
      · exact .inl (.inr ⟨heq.symm, hid⟩)
    · exact .inl (.inl hlt)

instance : IsTrans PasswordHistoryRow PasswordHistoryRow.newer where
  trans row row' row'' h h' := by
    unfold PasswordHistoryRow.newer at h h' ⊢
    rcases h with h | ⟨heq, hid⟩
    · rcases h' with h' | ⟨heq', -⟩
      · exact .inl (h'.trans h)
      · exact .inl (heq'.trans_lt h)
    · rcases h' with h' | ⟨heq', hid'⟩
      · exact .inl (h'.trans_eq heq)
      · exact .inr ⟨heq'.trans heq, BitVec.le_trans hid' hid⟩

namespace PasswordHistory

variable {defaults : RowDefaults} (history : PasswordHistory defaults) {userId other : Uuid} {hash : String}

/-- The ids order rows of one time. -/
theorem distinguishes : Distinguishes PasswordHistoryRow.newer history.table.rows := by
  intro row hrow row' hrow' h h'
  unfold PasswordHistoryRow.newer at h h'
  refine Table.eq_of_key hrow hrow' ?_
  rcases h with h | ⟨heq, hid⟩
  · rcases h' with h' | ⟨heq', -⟩
    · exact absurd h' (lt_asymm h)
    · exact absurd heq' h.ne'
  · rcases h' with h' | ⟨-, hid'⟩
    · exact absurd heq h'.ne'
    · exact BitVec.le_antisymm hid' hid

theorem mem_ofUser {row : PasswordHistoryRow} :
    row ∈ history.ofUser userId ↔ row ∈ history.table ∧ row.userId = userId := by
  rw [ofUser, mem_orderBy, List.mem_filter, decide_eq_true_iff]
  exact Iff.rfl

theorem nodup_ofUser : ((history.ofUser userId).map PasswordHistoryRow.id).Nodup := by
  have hrows := history.table.distinct.sublist
    ((List.filter_sublist (p := fun row => decide (row.userId = userId))).map PasswordHistoryRow.id)
  exact ((orderBy_perm _).map PasswordHistoryRow.id).nodup_iff.2 hrows

theorem getLastN_eq (n : Nat) :
    history.getLastN userId n = (history.lists userId).take n := by
  rw [getLastN, lists, List.map_take]

/-- A row that is inserted is the newest of its user. -/
theorem ofUser_push (hfresh : history.table.find? (history.nextRow userId hash).id = none) :
    (history.push userId hash).ofUser userId = history.nextRow userId hash :: history.ofUser userId := by
  have hrows : (history.push userId hash).table.rows = history.table.rows ++ [history.nextRow userId hash] :=
    Table.rows_insert_of_fresh hfresh
  have hfilter : (history.push userId hash).table.rows.filter (fun row => row.userId = userId)
      = history.table.rows.filter (fun row => row.userId = userId) ++ [history.nextRow userId hash] := by
    rw [hrows, List.filter_append]
    simp [nextRow]
  have hdistinct := (history.push userId hash).distinguishes.of_subset
    (List.filter_subset_self (p := fun row => decide (row.userId = userId)) _)
  rw [hfilter] at hdistinct
  rw [ofUser, hfilter, orderBy_append_first hdistinct]
  · rfl
  · intro row hrow
    exact .inl (history.older row (List.mem_of_mem_filter hrow))

theorem ofUser_push_of_ne (hne : other ≠ userId)
    (hfresh : history.table.find? (history.nextRow userId hash).id = none) :
    (history.push userId hash).ofUser other = history.ofUser other := by
  have hrows : (history.push userId hash).table.rows = history.table.rows ++ [history.nextRow userId hash] :=
    Table.rows_insert_of_fresh hfresh
  rw [ofUser, hrows, List.filter_append]
  simp [nextRow, hne.symm, ofUser]

theorem ofUser_delete (p : PasswordHistoryRow → Bool) :
    (history.delete p).ofUser userId = (history.ofUser userId).filter fun row => !p row := by
  have hdistinct := history.distinguishes.of_subset
    (List.filter_subset_self (p := fun row => decide (row.userId = userId)) _)
  rw [ofUser, ofUser, ← orderBy_filter hdistinct]
  simp only [delete, Table.delete, List.filter_filter]
  congr 1
  refine List.filter_congr fun row _ => Bool.and_comm _ _

/-- The purge keeps the rows that a read of as many returns. -/
theorem ofUser_purge (keep : Nat) :
    (history.purgeOlderThan userId keep).ofUser userId = (history.ofUser userId).take keep := by
  rw [purgeOlderThan, ofUser_delete]
  have hnodup : (history.ofUser userId).Nodup := List.Nodup.of_map _ history.nodup_ofUser
  refine (List.filter_congr fun row hrow => ?_).trans (filter_mem_take hnodup keep)
  have huser : row.userId = userId := (history.mem_ofUser.1 hrow).2
  have hid : (∃ kept ∈ (history.ofUser userId).take keep, kept.id = row.id)
      ↔ row ∈ (history.ofUser userId).take keep := by
    constructor
    · rintro ⟨kept, hkept, hsame⟩
      have hin := List.mem_of_mem_take hkept
      rwa [← Table.eq_of_key (history.mem_ofUser.1 hin).1 (history.mem_ofUser.1 hrow).1 hsame]
    · exact fun hrow' => ⟨row, hrow', rfl⟩
  rw [Bool.eq_iff_iff]
  simp only [huser, decide_true, Bool.true_and, Bool.not_not, List.any_eq_true, decide_eq_true_iff, hid]

theorem ofUser_purge_of_ne (hne : other ≠ userId) (keep : Nat) :
    (history.purgeOlderThan userId keep).ofUser other = history.ofUser other := by
  rw [purgeOlderThan, ofUser_delete, List.filter_eq_self]
  intro row hrow
  have hother : row.userId ≠ userId := by
    rw [(history.mem_ofUser.1 hrow).2]
    exact hne
  simp [hother]

theorem lists_push (hfresh : history.table.find? (history.nextRow userId hash).id = none) :
    (history.push userId hash).lists
      = Function.update history.lists userId (hash :: history.lists userId) := by
  funext other
  by_cases hother : other = userId
  · subst hother
    rw [Function.update_self, lists, ofUser_push history hfresh]
    rfl
  · rw [Function.update_of_ne hother, lists, ofUser_push_of_ne history hother hfresh, lists]

theorem lists_purge (keep : Nat) :
    (history.purgeOlderThan userId keep).lists
      = Function.update history.lists userId ((history.lists userId).take keep) := by
  funext other
  by_cases hother : other = userId
  · subst hother
    rw [Function.update_self, lists, ofUser_purge, List.map_take, lists]
  · rw [Function.update_of_ne hother, lists, ofUser_purge_of_ne history hother, lists]

theorem lists_deleteUser :
    (history.delete fun row => row.userId = userId).lists = Function.update history.lists userId [] := by
  funext other
  rw [lists, ofUser_delete]
  by_cases hother : other = userId
  · subst hother
    rw [Function.update_self, List.filter_eq_nil_iff.2, List.map_nil]
    intro row hrow
    simp [(history.mem_ofUser.1 hrow).2]
  · rw [Function.update_of_ne hother, List.filter_eq_self.2, lists]
    intro row hrow
    simp [(history.mem_ofUser.1 hrow).2, hother]

end PasswordHistory

/-! ## The lists of the accounts -/

section View

variable {state : AuthState} {defaults : RowDefaults} {s : AccountTables defaults} {step : Step AccountStore}

/-- The rows answer as the lists do. -/
theorem AccountTables.view_answers (h : s.answers state step.op step.answer) :
    s.view.answers state step.op step.answer := by
  obtain ⟨o, answer⟩ := step
  cases o
  case getLastPasswords userId n =>
    have hread : FetchRow (fun hashes => hashes = s.history.getLastN userId n) answer := h
    rw [s.history.getLastN_eq] at hread
    exact hread
  case pushPassword userId hash =>
    have hpush : FetchRow (fun _ => s.history.table.find? (s.history.nextRow userId hash).id = none) answer := h
    cases answer with
    | error e => cases e <;> exact hpush
    | ok done => trivial
  all_goals exact h

/-- A step on the rows is the step on the lists. -/
theorem AccountTables.view_next (h : s.answers state step.op step.answer) :
    (s.next state step).view = s.view.next state step := by
  obtain ⟨o, answer⟩ := step
  have hlists : ∀ {lists lists' : Uuid → List String}, lists = lists' → ∀ accounts : AccountWorld,
      ({ accounts with history := lists } : AccountWorld) = { accounts with history := lists' } := by
    rintro lists _ rfl accounts
    rfl
  cases o
  case pushPassword userId hash =>
    cases answer with
    | error e => rfl
    | ok done => exact hlists (s.history.lists_push h) s.accounts
  case purgePasswords userId keep =>
    cases answer with
    | error e => rfl
    | ok done => exact hlists (s.history.lists_purge keep) s.accounts
  case deleteUser userId =>
    cases answer with
    | error e => rfl
    | ok done => exact hlists s.history.lists_deleteUser (s.accounts.next state ⟨.deleteUser userId, .ok ()⟩)
  all_goals first | rfl | cases answer <;> rfl

theorem AccountTables.view_safe {tr : List (Step AccountStore)} (h : (accountTables state defaults).Safe s tr) :
    (accountWorld state).Safe s.view tr
      ∧ (accountWorld state).after s.view tr = ((accountTables state defaults).after s tr).view := by
  induction tr generalizing s with
  | nil => exact ⟨trivial, rfl⟩
  | cons step tr ih =>
      obtain ⟨haccepts, hsafe⟩ := h
      have hnext : (s.next state step).view = s.view.next state step := AccountTables.view_next haccepts
      obtain ⟨hsafe', hafter⟩ := ih hsafe
      rw [hnext] at hsafe' hafter
      exact ⟨⟨AccountTables.view_answers haccepts, hsafe'⟩, hafter⟩

/-- A session on the rows is a session on the lists. -/
theorem AccountTables.view_serves {env : Environment AccountStore} {exchanges : List AccountExchange}
    (h : (accountTables state defaults).Serves env (AccountRequest.serve state) s exchanges) :
    (accountWorld state).Serves env (AccountRequest.serve state) s.view exchanges := by
  induction exchanges generalizing s with
  | nil => trivial
  | cons x rest ih =>
      obtain ⟨⟨hrun, hsafe⟩, hrest⟩ := h
      obtain ⟨hsafe', hafter⟩ := AccountTables.view_safe hsafe
      refine ⟨⟨hrun, hsafe'⟩, ?_⟩
      rw [hafter]
      exact ih hrest

end View

/-! ## One change -/

/-- The requests that change a password, with the new one. -/
def AccountRequest.newPassword : AccountRequest → Option String
  | .changePassword _ _ newPassword => some newPassword
  | .changeRequired _ newPassword => some newPassword
  | .adminResetPassword _ _ newPassword => some newPassword
  | .resetPassword _ newPassword => some newPassword
  | _ => none

/-- The password that a step sets: of which user, and its hash. -/
def passwordSet : Step AccountStore → Option (Uuid × String)
  | ⟨.updatePassword userId hash _, .ok _⟩ => some (userId, hash)
  | _ => none

/-- The answer is not that the database failed. -/
def NoDatabaseError {α : Type} : Except PasteurError α → Prop
  | .error (.database _) => False
  | _ => True

/-- Answers without database errors. -/
def withoutDatabaseErrors : Environment AccountStore
  | .getUserByEmail _, answer => NoDatabaseError answer
  | .getUserById _, answer => NoDatabaseError answer
  | .createUser _ _ _ _, answer => NoDatabaseError answer
  | .updateUser _ _ _ _, answer => NoDatabaseError answer
  | .deleteUser _, answer => NoDatabaseError answer
  | .updatePassword _ _ _, answer => NoDatabaseError answer
  | .setMustChange _ _, answer => NoDatabaseError answer
  | .removeMemberships _, answer => NoDatabaseError answer
  | .getRefreshToken _, answer => NoDatabaseError answer
  | .createRefreshToken _ _ _, answer => NoDatabaseError answer
  | .deleteRefreshToken _, answer => NoDatabaseError answer
  | .deleteRefreshTokenByHash _, answer => NoDatabaseError answer
  | .deleteRefreshTokensOf _, answer => NoDatabaseError answer
  | .getLastPasswords _ _, answer => NoDatabaseError answer
  | .pushPassword _ _, answer => NoDatabaseError answer
  | .purgePasswords _ _, answer => NoDatabaseError answer
  | .getResetToken _, answer => NoDatabaseError answer
  | .createResetToken _ _ _, answer => NoDatabaseError answer
  | .markResetTokenUsed _, answer => NoDatabaseError answer
  | _, _ => True

/-- A statement that reports every failure as a database error has succeeded. -/
theorem FetchRow.ok {α : Type} {found : α → Prop} {answer : Except PasteurError α} (h : FetchRow found answer)
    (hanswer : NoDatabaseError answer) : ∃ row, answer = .ok row ∧ found row := by
  cases answer with
  | ok row => exact ⟨row, rfl, h⟩
  | error e => cases e <;> first | exact h.elim | exact hanswer.elim

theorem Executed.ok {answer : Except PasteurError Unit} (h : Executed answer) (hanswer : NoDatabaseError answer) :
    answer = .ok () := by
  cases answer with
  | ok row => rfl
  | error e => cases e <;> first | exact h.elim | exact hanswer.elim

section Change

variable {state : AuthState} {s : AccountWorld} {before : List (Step AccountStore)} {newPassword : String}

/-- A password that passes the policy verifies against none of the hashes it is compared with. -/
theorem not_reused_of_validate {history : List String} (h : validatePassword state newPassword history = .ok ()) :
    ∀ old ∈ history, state.argon2.verify newPassword old = false := by
  intro old hold
  by_contra hverify
  have hany : history.any (fun h => state.argon2.verify newPassword h) = true :=
    List.any_eq_true.2 ⟨old, hold, by simpa using hverify⟩
  unfold validatePassword at h
  simp only [hany, if_true, throw, throwThe, MonadExceptOf.throw, bind, Except.bind, pure, Except.pure] at h
  split_ifs at h

/-- Nothing is set and the lists stay, or one password is set: it is not among the last of its user, and becomes
    the newest entry of a list that is as long as the policy says. -/
def SetsFresh (state : AuthState) (newPassword : String) (history history' : Uuid → List String)
    (steps : List (Step AccountStore)) : Prop :=
  (steps.filterMap passwordSet = [] ∧ history' = history)
    ∨ ∃ userId hash, steps.filterMap passwordSet = [(userId, hash)]
      ∧ state.argon2.verify newPassword hash = true
      ∧ (∀ old ∈ (history userId).take state.maxReuse, state.argon2.verify newPassword old = false)
      ∧ history' = Function.update history userId ((hash :: history userId).take state.maxReuse)

/-- A step that sets no password adds none to what is set. -/
theorem filterMap_passwordSet_snoc {steps : List (Step AccountStore)} {step : Step AccountStore}
    (hstep : passwordSet step = none) :
    (steps ++ [step]).filterMap passwordSet = steps.filterMap passwordSet := by
  rw [List.filterMap_append, List.filterMap_cons, hstep]
  exact List.append_nil _

theorem passwordExpiry_quiet (hbefore : before.filterMap passwordSet = []) :
    (accountWorld state).recording.Guarantees withoutDatabaseErrors (s, before) (passwordExpiry state)
      fun out s' => (∃ expiresAt, out = .ok expiresAt) ∧ s'.1 = s ∧ s'.2.filterMap passwordSet = [] := by
  unfold passwordExpiry
  split
  · exact .perform fun now _ _ => .pure ⟨⟨_, rfl⟩, rfl, (filterMap_passwordSet_snoc rfl).trans hbefore⟩
  · exact .pure ⟨⟨_, rfl⟩, rfl, hbefore⟩

theorem doPasswordChange_setsFresh (hbefore : before.filterMap passwordSet = []) (userId : Uuid) :
    (accountWorld state).recording.Guarantees withoutDatabaseErrors (s, before)
      (doPasswordChange state userId newPassword)
      fun _ s' => SetsFresh state newPassword s.history s'.1.history s'.2 := by
  refine .perform fun fetched hfetched haccepts => ?_
  obtain ⟨history, rfl, rfl⟩ := FetchRow.ok haccepts hfetched
  refine .ofExcept_bind (fun _ h => by cases h) fun _ h => ?_
  cases h
  have hread : (before ++ [(⟨.getLastPasswords userId state.maxReuse,
      .ok ((s.history userId).take state.maxReuse)⟩ : Step AccountStore)]).filterMap passwordSet = [] :=
    (filterMap_passwordSet_snoc rfl).trans hbefore
  refine .ofExcept_bind (fun _ _ => .inl ⟨hread, rfl⟩) fun _ hvalid => ?_
  have hfresh : ∀ old ∈ (s.history userId).take state.maxReuse, state.argon2.verify newPassword old = false := by
    refine not_reused_of_validate ?_
    cases hresult : validatePassword state newPassword ((s.history userId).take state.maxReuse) with
    | error e =>
        rw [hresult] at hvalid
        cases hvalid
    | ok done => rfl
  refine .perform fun hash _ hverify => ?_
  refine .bind (passwordExpiry_quiet (s := s) ?_) (fun expiresAt s' h => ?_) fun e s' h => ?_
  · exact (filterMap_passwordSet_snoc rfl).trans hread
  · obtain ⟨-, rfl, hquiet⟩ := h
    refine .perform fun updated hupdated haccepts => ?_
    obtain ⟨user, rfl, -⟩ := FetchRow.ok haccepts hupdated
    refine .ofExcept_bind (fun _ h => by cases h) fun _ _ => ?_
    refine .perform fun pushed hpushed haccepts => ?_
    obtain rfl := Executed.ok haccepts hpushed
    refine .ofExcept_bind (fun _ h => by cases h) fun _ _ => ?_
    refine .perform fun purged hpurged haccepts => ?_
    obtain rfl := Executed.ok haccepts hpurged
    refine .ofExcept_bind (fun _ h => by cases h) fun _ _ => ?_
    refine .perform fun deleted hdeleted haccepts => ?_
    obtain ⟨count, rfl, -⟩ := FetchRow.ok haccepts hdeleted
    refine .ofExcept_bind (fun _ h => by cases h) fun _ _ => ?_
    refine .pure (.inr ⟨userId, hash, ?_, hverify, hfresh, ?_⟩)
    · simp [passwordSet, hquiet]
    · funext other
      by_cases hother : other = userId
      · subst hother
        simp [AccountWorld.next, AccountWorld.updateUsers]
      · simp [AccountWorld.next, AccountWorld.updateUsers, hother]
  · exact absurd h.1 (by rintro ⟨_, h⟩; cases h)

theorem passwordExpired_quiet (hbefore : before.filterMap passwordSet = []) (user : User) :
    (accountWorld state).recording.Guarantees withoutDatabaseErrors (s, before) (passwordExpired user)
      fun _ s' => s'.1 = s ∧ s'.2.filterMap passwordSet = [] := by
  unfold passwordExpired
  split
  · exact .pure ⟨rfl, hbefore⟩
  · exact .perform fun now _ _ => .pure ⟨rfl, (filterMap_passwordSet_snoc rfl).trans hbefore⟩

theorem SetsFresh.nothing {history : Uuid → List String} {steps : List (Step AccountStore)}
    (h : steps.filterMap passwordSet = []) : SetsFresh state newPassword history history steps :=
  .inl ⟨h, rfl⟩

/-- A step that sets no password. -/
theorem SetsFresh.snoc {history history' : Uuid → List String} {steps : List (Step AccountStore)}
    (h : SetsFresh state newPassword history history' steps) {step : Step AccountStore}
    (hstep : passwordSet step = none) : SetsFresh state newPassword history history' (steps ++ [step]) := by
  unfold SetsFresh
  rwa [filterMap_passwordSet_snoc hstep]

theorem changePassword_setsFresh (claims : Claims) (currentPassword : String) :
    (accountWorld state).recording.Guarantees withoutDatabaseErrors (s, [])
      (changePassword state claims currentPassword newPassword)
      fun _ s' => SetsFresh state newPassword s.history s'.1.history s'.2 := by
  refine .perform fun fetched _ _ => orCoreError_bind (fun _ _ => .nothing rfl) fun user _ => ?_
  split
  · exact .throw (.nothing rfl)
  · split
    · exact doPasswordChange_setsFresh rfl claims.userId
    · exact .throw (.nothing rfl)

theorem changeRequired_setsFresh (claims : Claims) :
    (accountWorld state).recording.Guarantees withoutDatabaseErrors (s, [])
      (changeRequired state claims newPassword)
      fun _ s' => SetsFresh state newPassword s.history s'.1.history s'.2 := by
  refine .perform fun fetched _ _ => orCoreError_bind (fun _ _ => .nothing rfl) fun user _ => ?_
  refine .bind (passwordExpired_quiet rfl user) (fun expired s' hquiet => ?_) fun e s' hquiet => ?_
  · obtain ⟨w, steps⟩ := s'
    obtain ⟨rfl, hsteps⟩ := hquiet
    dsimp only
    split
    · exact .throw (.nothing hsteps)
    · exact doPasswordChange_setsFresh hsteps claims.userId
  · obtain ⟨w, steps⟩ := s'
    obtain ⟨rfl, hsteps⟩ := hquiet
    exact .nothing hsteps

theorem adminResetPassword_setsFresh (claims : Claims) (userId : Uuid) :
    (accountWorld state).recording.Guarantees withoutDatabaseErrors (s, [])
      (adminResetPassword state claims userId newPassword)
      fun _ s' => SetsFresh state newPassword s.history s'.1.history s'.2 := by
  refine .ofExcept_bind (fun _ _ => .nothing rfl) fun role _ => ?_
  refine .ofExcept_bind (fun _ _ => .nothing rfl) fun _ _ => ?_
  refine .perform fun fetched _ _ => orCoreError_bind (fun _ _ => .nothing rfl) fun target _ => ?_
  refine .ofExcept_bind (fun _ _ => .nothing rfl) fun _ _ => ?_
  refine .ofExcept_bind (fun _ _ => .nothing rfl) fun _ _ => ?_
  refine .bind (doPasswordChange_setsFresh rfl target.id) (fun _ s' hset => ?_) fun _ _ hset => hset
  refine .perform fun updated _ _ => ?_
  have hafter : SetsFresh state newPassword s.history (s'.1.updateUsers updated).history
      (s'.2 ++ [⟨.setMustChange target.id true, updated⟩]) := by
    cases updated with
    | error e => exact hset.snoc rfl
    | ok user => exact hset.snoc rfl
  exact orCoreError_bind (fun _ _ => hafter) fun _ _ => .pure hafter

theorem resetPassword_setsFresh (token : String) :
    (accountWorld state).recording.Guarantees withoutDatabaseErrors (s, [])
      (resetPassword state token newPassword)
      fun _ s' => SetsFresh state newPassword s.history s'.1.history s'.2 := by
  refine .perform fun fetched _ _ => ?_
  cases fetched with
  | error e => exact .throw (.nothing rfl)
  | ok stored =>
      dsimp only
      split
      · exact .throw (.nothing rfl)
      · refine .perform fun now _ _ => ?_
        split
        · exact .throw (.nothing rfl)
        · refine .bind (doPasswordChange_setsFresh rfl stored.userId) (fun _ s' hset => ?_) fun _ _ hset => hset
          refine .perform fun marked _ _ => ?_
          cases marked with
          | error e => exact .throw (hset.snoc rfl)
          | ok done => exact .pure (hset.snoc rfl)

/-- What a request to change a password does. -/
theorem AccountRequest.setsFresh {r : AccountRequest} (h : r.newPassword = some newPassword) :
    (accountWorld state).recording.Guarantees withoutDatabaseErrors (s, []) (r.serve state)
      fun _ s' => SetsFresh state newPassword s.history s'.1.history s'.2 := by
  cases r with
  | changePassword claims currentPassword new =>
      obtain rfl : new = newPassword := Option.some.inj h
      exact .bind (changePassword_setsFresh claims currentPassword) (fun _ _ hset => .pure hset) fun _ _ hset => hset
  | changeRequired claims new =>
      obtain rfl : new = newPassword := Option.some.inj h
      exact .bind (changeRequired_setsFresh claims) (fun _ _ hset => .pure hset) fun _ _ hset => hset
  | adminResetPassword claims userId new =>
      obtain rfl : new = newPassword := Option.some.inj h
      exact .bind (adminResetPassword_setsFresh claims userId) (fun _ _ hset => .pure hset) fun _ _ hset => hset
  | resetPassword token new =>
      obtain rfl : new = newPassword := Option.some.inj h
      exact .bind (resetPassword_setsFresh token) (fun _ _ hset => .pure hset) fun _ _ hset => hset
  | _ => cases h

end Change

/-! ## Many changes -/

/-- The hashes of the passwords that the steps have set for the user, the last one first. -/
def hashesSet (userId : Uuid) (steps : List (Step AccountStore)) : List String :=
  (((steps.filterMap passwordSet).filter fun p => p.1 = userId).map Prod.snd).reverse

/-- The hashes of the passwords that the exchanges have set for the user, the last one first. -/
def passwordsSet (userId : Uuid) (exchanges : List AccountExchange) : List String :=
  hashesSet userId (exchanges.flatMap Exchange.steps)

theorem passwordsSet_cons (userId : Uuid) (x : AccountExchange) (rest : List AccountExchange) :
    passwordsSet userId (x :: rest) = passwordsSet userId rest ++ hashesSet userId x.steps := by
  simp [passwordsSet, hashesSet]

/-- What is cut off behind does not matter to the first entries. -/
theorem take_append_take {α : Type} (xs ys : List α) (n : Nat) :
    (xs ++ ys.take n).take n = (xs ++ ys).take n := by
  rw [List.take_append, List.take_append, List.take_take]
  congr 2
  omega

section Session

variable {state : AuthState} {s : AccountWorld} {earlier later : List AccountExchange}

/-- The entries that the next change reads are the last passwords of the user. -/
theorem take_history (hserved : (accountWorld state).Serves withoutDatabaseErrors (AccountRequest.serve state) s earlier)
    (hchanges : ∀ x ∈ earlier, x.request.newPassword.isSome) (userId : Uuid) :
    (((accountWorld state).afterAll s earlier).history userId).take state.maxReuse
      = (passwordsSet userId earlier ++ s.history userId).take state.maxReuse := by
  induction earlier generalizing s with
  | nil => rfl
  | cons x rest ih =>
      obtain ⟨⟨hrun, hsafe⟩, hrest⟩ := hserved
      obtain ⟨newPassword, hnew⟩ := Option.isSome_iff_exists.1 (hchanges x List.mem_cons_self)
      have hset : SetsFresh state newPassword s.history _ x.steps :=
        (AccountRequest.setsFresh hnew).recorded hrun hsafe
      have hlater := ih hrest fun y hy => hchanges y (List.mem_cons_of_mem _ hy)
      rw [Monitor.afterAll, List.foldl_cons]
      refine hlater.trans ?_
      rw [passwordsSet_cons]
      rcases hset with ⟨hnone, hsame⟩ | ⟨changed, hash, hone, -, -, hafter⟩
      · rw [hsame, hashesSet, hnone]
        simp
      · by_cases huser : userId = changed
        · subst huser
          rw [hafter, Function.update_self, hashesSet, hone, take_append_take]
          simp
        · rw [hafter, Function.update_of_ne huser, hashesSet, hone]
          simp [Ne.symm huser]

end Session

/-- The world after a session on the rows, as the lists show it. -/
theorem AccountTables.view_afterAll {state : AuthState} {defaults : RowDefaults} {s : AccountTables defaults}
    {env : Environment AccountStore} {exchanges : List AccountExchange}
    (h : (accountTables state defaults).Serves env (AccountRequest.serve state) s exchanges) :
    (accountWorld state).afterAll s.view exchanges
      = ((accountTables state defaults).afterAll s exchanges).view := by
  induction exchanges generalizing s with
  | nil => rfl
  | cons x rest ih =>
      obtain ⟨⟨-, hsafe⟩, hrest⟩ := h
      rw [Monitor.afterAll, Monitor.afterAll, List.foldl_cons, List.foldl_cons,
        (AccountTables.view_safe hsafe).2]
      exact ih hrest

/-- In every session of password changes, a password that is set verifies against none of the last ones of its
    user, and leaves no more rows than are compared. -/
theorem password_not_reused (state : AuthState) (defaults : RowDefaults) (s : AccountTables defaults)
    (earlier later : List AccountExchange) (x : AccountExchange) (userId : Uuid) (hash : String)
    (hserved : (accountTables state defaults).Serves withoutDatabaseErrors (AccountRequest.serve state) s
      (earlier ++ x :: later))
    (hchanges : ∀ y ∈ earlier ++ x :: later, y.request.newPassword.isSome)
    (hset : (userId, hash) ∈ x.steps.filterMap passwordSet) :
    ∃ newPassword, x.request.newPassword = some newPassword ∧ state.argon2.verify newPassword hash = true
      ∧ (∀ old ∈ (passwordsSet userId earlier ++ s.history.lists userId).take state.maxReuse,
          state.argon2.verify newPassword old = false)
      ∧ (((accountTables state defaults).afterAll s (earlier ++ [x])).history.ofUser userId).length
          ≤ state.maxReuse := by
  have hassoc : earlier ++ x :: later = (earlier ++ [x]) ++ later := by simp
  rw [hassoc] at hserved
  obtain ⟨hserved, -⟩ := Monitor.serves_append.1 hserved
  have hviewed := AccountTables.view_afterAll hserved
  obtain ⟨hbefore, ⟨hrun, hsafe⟩, -⟩ := Monitor.serves_append.1 (AccountTables.view_serves hserved)
  obtain ⟨newPassword, hnew⟩ := Option.isSome_iff_exists.1 (hchanges x (by simp))
  have hlast := take_history hbefore (fun y hy => hchanges y (List.mem_append_left _ hy)) userId
  rcases (AccountRequest.setsFresh hnew).recorded hrun hsafe with ⟨hnone, -⟩ | ⟨changed, set, hone, hverify, hfresh, hafter⟩
  · rw [hnone] at hset
    exact absurd hset List.not_mem_nil
  · rw [hone, List.mem_singleton] at hset
    obtain ⟨rfl, rfl⟩ := Prod.mk.inj hset
    rw [hlast] at hfresh
    refine ⟨newPassword, hnew, hverify, hfresh, ?_⟩
    have hrows : ((accountTables state defaults).afterAll s (earlier ++ [x])).history.lists userId
        = (hash :: ((accountWorld state).afterAll s.view earlier).history userId).take state.maxReuse := by
      have hlists := congrArg (fun w : AccountWorld => w.history userId) hviewed
      rw [Monitor.afterAll, List.foldl_append] at hlists
      exact hlists.symm.trans ((congrFun hafter userId).trans (Function.update_self _ _ _))
    have hlength := congrArg List.length hrows
    rw [PasswordHistory.lists, List.length_map, List.length_take] at hlength
    omega

/-! ## Two changes -/

/-- Ids and times count up. -/
def sampleDefaults : RowDefaults where
  id n := BitVec.ofNat 128 n
  createdAt n := n
  increasing _ _ h := Int.ofNat_lt.2 h

/-- The sample accounts, with no password in the history. -/
def samplePasswordTables : AccountTables sampleDefaults where
  accounts := sampleAccounts
  history := ⟨.empty, 0, fun _ hrow => absurd hrow List.not_mem_nil⟩

/-- The user with another password. -/
def sampleUserWith (password : String) : User :=
  { sampleUser 3 "ann" "user" with passwordHash := some ("$argon2id$" ++ password) }

/-- A change of the password of the user 3, with the hashes it reads. -/
def samplePasswordChange (old new : String) (read : List String) : AccountExchange where
  request := .changePassword ⟨3, 10, "user"⟩ old new
  steps := [⟨.getUserById 3, .ok (sampleUserWith old)⟩, ⟨.getLastPasswords 3 5, .ok read⟩,
    ⟨.hashPassword new, "$argon2id$" ++ new⟩,
    ⟨.updatePassword 3 ("$argon2id$" ++ new) none, .ok (sampleUserWith new)⟩,
    ⟨.pushPassword 3 ("$argon2id$" ++ new), .ok ()⟩, ⟨.purgePasswords 3 5, .ok ()⟩,
    ⟨.deleteRefreshTokensOf 3, .ok 0⟩]
  outcome := .ok .done

theorem sampleAuthState_verify (password : String) :
    sampleAuthState.argon2.verify password ("$argon2id$" ++ password) = true :=
  decide_eq_true rfl

theorem samplePasswordChange_runs (old new : String) (read : List String)
    (hvalid : validatePassword sampleAuthState new read = .ok ()) :
    (AccountRequest.serve sampleAuthState (samplePasswordChange old new read).request).Runs withoutDatabaseErrors
      (samplePasswordChange old new read).steps (samplePasswordChange old new read).outcome := by
  have hpolicy : orFail ((validatePassword sampleAuthState new read).mapError fun e => ApiError.badRequest e.toText)
      = .pure () := by
    rw [hvalid]
    rfl
  have hchange : (doPasswordChange sampleAuthState 3 new).Runs withoutDatabaseErrors
      ((samplePasswordChange old new read).steps.drop 1) (.ok ()) := by
    unfold doPasswordChange
    refine .perform trivial (Program.runs_bind_iff.2 (.inr ⟨read, [], _, rfl, .pure _, ?_⟩))
    rw [hpolicy]
    exact .op trivial (.op trivial (.op trivial (.op trivial (.op trivial (.pure _)))))
  refine Program.runs_bind_iff.2 (.inr ⟨(), _, [], (List.append_nil _).symm, .perform trivial ?_, .pure _⟩)
  show (if sampleAuthState.argon2.verify old ("$argon2id$" ++ old) = true then
    doPasswordChange sampleAuthState 3 new else Program.throw ApiError.unauthorized).Runs _ _ _
  rw [if_pos (sampleAuthState_verify old)]
  exact hchange

theorem password_not_reused_sample :
    sampleAuthState.argon2.verify "third" "$argon2id$second" = false
      ∧ (((accountTables sampleAuthState sampleDefaults).afterAll samplePasswordTables
          [samplePasswordChange "old" "second" [],
            samplePasswordChange "second" "third" ["$argon2id$second"]]).history.ofUser 3).length ≤ 5 := by
  have hserved : (accountTables sampleAuthState sampleDefaults).Serves withoutDatabaseErrors
      (AccountRequest.serve sampleAuthState) samplePasswordTables
      [samplePasswordChange "old" "second" [], samplePasswordChange "second" "third" ["$argon2id$second"]] := by
    refine ⟨⟨samplePasswordChange_runs _ _ _ (by decide), ?_⟩, ⟨samplePasswordChange_runs _ _ _ (by decide), ?_⟩,
      trivial⟩
    · exact ⟨rfl, rfl, sampleAuthState_verify _, ⟨sampleUserWith "old", rfl, rfl⟩, rfl, trivial, trivial, trivial⟩
    · exact ⟨rfl, rfl, sampleAuthState_verify _, ⟨sampleUserWith "second", rfl, rfl⟩, rfl, trivial, trivial, trivial⟩
  obtain ⟨newPassword, hnew, -, hfresh, hrows⟩ := password_not_reused sampleAuthState sampleDefaults
    samplePasswordTables [samplePasswordChange "old" "second" []] []
    (samplePasswordChange "second" "third" ["$argon2id$second"]) 3 "$argon2id$third" hserved
    (by decide) (by decide)
  obtain rfl := Option.some.inj hnew
  exact ⟨hfresh _ (by decide), hrows⟩

end Godwit
