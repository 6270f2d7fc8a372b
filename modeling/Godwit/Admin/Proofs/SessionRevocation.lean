import Godwit.Admin.Proofs.Rotation
import Godwit.Admin.Proofs.Resets

set_option autoImplicit false

/-! # Sessions after a password change

A password change sets the new hash and then deletes the refresh tokens of the user. A login that has read
the old hash, or a refresh that has looked up an old token, can store its new token after the deletion.
Where no such request does, every session that is left goes back to a login with the new password. -/

namespace Godwit

/-- A login or a refresh. -/
def AccountRequest.IsSession : AccountRequest → Prop
  | .login _ => True
  | .refresh _ => True
  | _ => False

/-- The token goes back, through refreshes, to a login that verified its password against the hash. -/
inductive Descends (state : AuthState) (requests : Nat → AccountRequest) (tr : AccountHistory)
    (hash : String) : RefreshToken → Prop where
  | login {i : Nat} {req : LoginRequest} {user : User} {token : RefreshToken} :
      requests i = .login req →
      (i, ⟨.getUserByEmail req.email, .ok user⟩) ∈ tr →
      user.passwordHash = some hash → state.argon2.verify req.password hash = true →
      (i, ⟨.createRefreshToken token.userId token.tokenHash token.expiresAt, .ok token⟩) ∈ tr →
      Descends state requests tr hash token
  | refresh {i : Nat} {presented : PresentedToken} {lookup : String} {parent token : RefreshToken} :
      requests i = .refresh presented →
      (i, ⟨.getRefreshToken lookup, .ok parent⟩) ∈ tr → Descends state requests tr hash parent →
      (i, ⟨.createRefreshToken token.userId token.tokenHash token.expiresAt, .ok token⟩) ∈ tr →
      Descends state requests tr hash token

/-- Every session of the user that is left goes back to a login with the password of the hash. -/
def OnlySessionsOf (state : AuthState) (requests : Nat → AccountRequest) (s : AccountWorld)
    (tr : AccountHistory) (userId : Uuid) (hash : String) : Prop :=
  ∀ token ∈ (accountsAfter state s tr).refreshTokens, token.userId = userId →
    Descends state requests tr hash token

/-- The request `c` sets the hash for the user before, and deletes the sessions of the user between
    `before` and `after`; all other requests are logins and refreshes. -/
structure PasswordChange (state : AuthState) (requests : Nat → AccountRequest) (s : AccountWorld)
    (before : AccountHistory) (c deleted : Nat) (after : AccountHistory) (userId : Uuid) (hash : String) :
    Prop where
  history : AccountsInterleaved state requests s
    (before ++ (c, ⟨.deleteRefreshTokensOf userId, .ok deleted⟩) :: after)
  changed : ∃ expiresAt user, (c, ⟨.updatePassword userId hash expiresAt, .ok user⟩) ∈ before
  others : ∀ i, i ≠ c → (requests i).IsSession

/-- A request that stores a token of the user after the deletion has read neither another password hash
    nor a token from another password before it. -/
def IssuesAfresh (state : AuthState) (requests : Nat → AccountRequest) (before after : AccountHistory)
    (userId : Uuid) (hash : String) : Prop :=
  ∀ i tokenHash expiresAt token,
    (i, ⟨.createRefreshToken userId tokenHash expiresAt, .ok token⟩) ∈ after →
    (∀ email user, (i, ⟨.getUserByEmail email, .ok user⟩) ∈ before → user.passwordHash = some hash)
      ∧ ∀ lookup parent, (i, ⟨.getRefreshToken lookup, .ok parent⟩) ∈ before →
        Descends state requests before hash parent

theorem Descends.mono {state : AuthState} {requests : Nat → AccountRequest} {tr tr' : AccountHistory}
    {hash : String} {token : RefreshToken} (h : Descends state requests tr hash token) (hsub : tr ⊆ tr') :
    Descends state requests tr' hash token := by
  induction h with
  | login hrequest hread hhash hverify hcreate =>
      exact .login hrequest (hsub hread) hhash hverify (hsub hcreate)
  | refresh hrequest hread hparent hcreate ih =>
      exact .refresh hrequest (hsub hread) ih (hsub hcreate)

/-! ## The runs of logins and refreshes -/

section Runs

variable {state : AuthState} {env : Environment AccountStore} {tr : List (Step AccountStore)}
  {out : Except ApiError TokenPair}

/-- The operations of a login or a refresh; tokens are stored for these users. -/
def SessionOp (issues : Uuid → Prop) : AccountOp → Prop
  | .now | .issueAccessToken _ | .generateRefreshToken | .attemptAllowed _ _ | .getUserByEmail _
  | .getUserById _ | .getRefreshToken _ | .deleteRefreshToken _ => True
  | .createRefreshToken userId _ _ => issues userId
  | _ => False

theorem SessionOp.mono {issues issues' : Uuid → Prop} (h : ∀ userId, issues userId → issues' userId)
    (o : AccountOp) (ho : SessionOp issues o) : SessionOp issues' o := by
  cases o
  case createRefreshToken userId hash expiresAt => exact h _ ho
  all_goals exact ho

theorem issueTokenPair_only (user : User) : (issueTokenPair state user).Only (SessionOp (· = user.id)) := by
  refine .perform trivial fun _ => .bind (.ofExcept _) fun accessToken => .perform trivial fun generated => ?_
  refine .perform trivial fun now => .perform rfl fun created => .bind (.ofExcept _) fun _ => ?_
  -- whatever the cookies are: their texts are not to be computed here
  generalize headerValue (accessCookie state accessToken) = access
  generalize headerValue (refreshCookie state generated.plaintext) = refresh
  exact .bind (.ofExcept access) fun _ => .bind (.ofExcept refresh) fun _ => trivial

/-- A login reads its user first, and issues tokens to it if it verifies the password. -/
theorem login_runs {req : LoginRequest} (h : (login state req).Runs env tr out) :
    ∃ fetched rest, tr = ⟨.getUserByEmail req.email, fetched⟩ :: rest
      ∧ ∀ step ∈ rest, SessionOp (fun userId => ∃ user hash, fetched = .ok user ∧ user.id = userId
        ∧ user.passwordHash = some hash ∧ state.argon2.verify req.password hash = true) step.op := by
  have hrefuse : ∀ (issues : Uuid → Prop) ip, (refuseLogin ip).Only (SessionOp issues) := by
    intro issues ip
    refine .perform trivial fun reply => ?_
    split <;> exact trivial
  obtain ⟨fetched, rest, rfl, -, h⟩ := Program.runs_perform_bind_iff.1 h
  refine ⟨fetched, rest, rfl, h.only ?_⟩
  cases fetched with
  | error e => exact hrefuse _ _
  | ok user =>
      dsimp only
      split
      · exact trivial
      case h_2 hash hhash =>
        split
        case isTrue hverify =>
          refine .bind ((issueTokenPair_only user).mono (SessionOp.mono ?_)) fun pair => .bind ?_ fun _ => trivial
          · rintro userId rfl
            exact ⟨user, hash, rfl, rfl, hhash, hverify⟩
          · unfold mustChange passwordExpired
            split
            · exact trivial
            · split
              · exact trivial
              · exact .perform trivial fun _ => trivial
        · exact hrefuse _ _

/-- A refresh looks its token up first, and issues tokens to the owner of it. -/
theorem refresh_runs_lookup {presented : PresentedToken} (h : (refresh state presented).Runs env tr out) :
    (∀ step ∈ tr, SessionOp (fun _ => False) step.op)
      ∨ ∃ lookup stored now user rest, tr = ⟨.getRefreshToken lookup, .ok stored⟩ :: ⟨.now, now⟩
          :: ⟨.getUserById stored.userId, .ok user⟩ :: rest
        ∧ ∀ step ∈ rest, SessionOp (· = user.id) step.op := by
  unfold refresh at h
  split at h
  · obtain ⟨rfl, -⟩ := Program.runs_throw_iff.1 h
    exact .inl fun step hstep => absurd hstep List.not_mem_nil
  · obtain ⟨fetched, rest, rfl, -, h⟩ := Program.runs_perform_bind_iff.1 h
    cases fetched with
    | error e =>
        obtain ⟨rfl, -⟩ := Program.runs_throw_iff.1 h
        exact .inl (List.forall_mem_cons.2 ⟨trivial, fun step hstep => absurd hstep List.not_mem_nil⟩)
    | ok stored =>
        obtain ⟨now, rest, rfl, -, h⟩ := Program.runs_perform_bind_iff.1 h
        split at h
        · refine .inl (List.forall_mem_cons.2 ⟨trivial, List.forall_mem_cons.2 ⟨trivial, ?_⟩⟩)
          exact h.only (.perform trivial fun _ => trivial)
        · obtain ⟨fetched, rest, rfl, -, h⟩ := Program.runs_perform_bind_iff.1 h
          cases fetched with
          | error e =>
              obtain ⟨rfl, -⟩ := Program.runs_throw_iff.1 h
              refine .inl (List.forall_mem_cons.2 ⟨trivial, List.forall_mem_cons.2 ⟨trivial, ?_⟩⟩)
              exact List.forall_mem_cons.2 ⟨trivial, fun step hstep => absurd hstep List.not_mem_nil⟩
          | ok user =>
              refine .inr ⟨_, stored, now, user, rest, rfl, h.only ?_⟩
              exact .perform trivial fun _ => .bind (.ofExcept _) fun _ => issueTokenPair_only user

/-- The steps of a session are those of a login or a refresh. -/
theorem AccountRequest.IsSession.only {r : AccountRequest} (h : r.IsSession)
    {out : Except ApiError AccountResponse} (hrun : (r.serve state).Runs env tr out) :
    ∀ step ∈ tr, SessionOp (fun _ => True) step.op := by
  cases r with
  | login req =>
      obtain ⟨out, hrun⟩ := Program.Runs.of_bind_pure hrun
      obtain ⟨fetched, rest, rfl, hrest⟩ := login_runs hrun
      exact List.forall_mem_cons.2 ⟨trivial, fun step hstep =>
        SessionOp.mono (fun _ _ => trivial) _ (hrest step hstep)⟩
  | refresh presented =>
      obtain ⟨out, hrun⟩ := Program.Runs.of_bind_pure hrun
      rcases refresh_runs_lookup hrun with hnone | ⟨lookup, stored, now, user, rest, rfl, hrest⟩
      · exact fun step hstep => SessionOp.mono (fun _ _ => trivial) _ (hnone step hstep)
      · refine List.forall_mem_cons.2 ⟨trivial, List.forall_mem_cons.2 ⟨trivial, ?_⟩⟩
        exact List.forall_mem_cons.2 ⟨trivial, fun step hstep =>
          SessionOp.mono (fun _ _ => trivial) _ (hrest step hstep)⟩
  | _ => exact h.elim

end Runs

/-! ## The password hash -/

section Password

variable {state : AuthState} {requests : Nat → AccountRequest} {s : AccountWorld}
  {tr before after : AccountHistory} {step : Step AccountStore} {userId : Uuid} {hash : String}

/-- A user after a step was there before with the same password, which the step has not set, or the step
    has created it or set its password. -/
theorem user_of_next (haccepts : s.answers state step.op step.answer) {user : User}
    (h : user ∈ (s.next state step).users) :
    ((∃ old ∈ s.users, old.id = user.id ∧ old.passwordHash = user.passwordHash)
        ∧ ∀ hash expiresAt row, step ≠ ⟨.updatePassword user.id hash expiresAt, .ok row⟩)
      ∨ (∃ email name role organizationId, step.op = .createUser email name role organizationId)
      ∨ ∃ hash expiresAt row, step = ⟨.updatePassword user.id hash expiresAt, .ok row⟩
        ∧ user.passwordHash = some hash := by
  have hsame : ∀ {user}, user ∈ s.users →
      ∃ old ∈ s.users, old.id = user.id ∧ old.passwordHash = user.passwordHash :=
    fun hmem => ⟨_, hmem, rfl, rfl⟩
  -- A row that an update returns is in place of the old row with its key.
  have hupdated : ∀ {row old : User} {id : Uuid}, s.users.find? id = some old → row.id = old.id →
      user ∈ s.users.replace row →
      (user ∈ s.users ∧ user.id ≠ id) ∨ (user = row ∧ old ∈ s.users ∧ row.id = id) := by
    intro row old id hold hid hmem
    obtain ⟨hin, rfl⟩ := Table.find?_eq_some_iff.1 hold
    rcases Table.mem_replace.1 hmem with ⟨hkept, hne⟩ | ⟨rfl, -⟩
    · exact .inl ⟨hkept, hid ▸ hne⟩
    · exact .inr ⟨rfl, hin, hid⟩
  obtain ⟨o, answer⟩ := step
  cases o
  case createUser => exact .inr (.inl ⟨_, _, _, _, rfl⟩)
  case deleteUser id =>
    refine .inl ⟨?_, fun _ _ _ hstep => by cases hstep⟩
    cases answer with
    | error e => exact hsame h
    | ok done => exact hsame (Table.mem_delete.1 h).1
  case updatePassword id hash expiresAt =>
    cases answer with
    | error e => exact .inl ⟨hsame h, fun _ _ _ hstep => by cases hstep⟩
    | ok row =>
        obtain ⟨old, hold, hrow⟩ := haccepts
        rcases hupdated hold (by rw [hrow]) h with ⟨hkept, hne⟩ | ⟨rfl, -, rfl⟩
        · refine .inl ⟨hsame hkept, fun _ _ _ hstep => hne ?_⟩
          cases hstep
          rfl
        · exact .inr (.inr ⟨hash, expiresAt, _, rfl, by rw [hrow]⟩)
  case updateUser id name role organizationId =>
    refine .inl ⟨?_, fun _ _ _ hstep => by cases hstep⟩
    cases answer with
    | error e => exact hsame h
    | ok row =>
        obtain ⟨old, hold, hrow⟩ := haccepts
        rcases hupdated hold (by rw [hrow]) h with ⟨hkept, -⟩ | ⟨rfl, hin, -⟩
        · exact hsame hkept
        · exact ⟨old, hin, by rw [hrow], by rw [hrow]⟩
  case setMustChange id must =>
    refine .inl ⟨?_, fun _ _ _ hstep => by cases hstep⟩
    cases answer with
    | error e => exact hsame h
    | ok row =>
        obtain ⟨old, hold, hrow⟩ := haccepts
        rcases hupdated hold (by rw [hrow]) h with ⟨hkept, -⟩ | ⟨rfl, hin, -⟩
        · exact hsame hkept
        · exact ⟨old, hin, by rw [hrow], by rw [hrow]⟩
  all_goals
    refine .inl ⟨?_, fun _ _ _ hstep => by cases hstep⟩
    first | exact hsame h | cases answer <;> exact hsame h

/-- A password that a request has set is set by this step, or was set before. -/
theorem changed_of_next {l : AccountLocal} (h : (l.next step).changed = some (userId, hash)) :
    (∃ expiresAt row, step = ⟨.updatePassword userId hash expiresAt, .ok row⟩)
      ∨ l.changed = some (userId, hash) := by
  obtain ⟨o, answer⟩ := step
  cases o
  case updatePassword id hash expiresAt =>
    cases answer with
    | error e => exact .inr h
    | ok row =>
        cases h
        exact .inl ⟨expiresAt, row, rfl⟩
  all_goals first | exact .inr h | cases answer <;> exact .inr h

/-- A request sets one password. -/
theorem changed_kept {l : AccountLocal} (h : l.changed = some (userId, hash)) (hlocal : l.accepts step) :
    (l.next step).changed = some (userId, hash) := by
  obtain ⟨o, answer⟩ := step
  cases o
  case updatePassword id hash expiresAt =>
    rw [hlocal] at h
    cases h
  all_goals first | exact h | cases answer <;> exact h

/-- The hash that a request has set is the one its user has. -/
def PasswordSet (c : Nat) (s : AccountWorld) (l : Nat → AccountLocal) : Prop :=
  ∀ userId hash, (l c).changed = some (userId, hash) →
    ∀ user ∈ s.users, user.id = userId → user.passwordHash = some hash

theorem PasswordSet.kept {c i : Nat} {l : Nat → AccountLocal} (h : PasswordSet c s l)
    (haccepts : s.answers state step.op step.answer) (hlocal : (l i).accepts step)
    (hothers : i ≠ c → SessionOp (fun _ => True) step.op) :
    PasswordSet c (s.next state step) (Function.update l i ((l i).next step)) := by
  intro userId hash hchanged user hmem hid
  -- Either this very step has set the password, or it was set and stays as it is.
  have hwhen : (∃ expiresAt row, step = ⟨.updatePassword userId hash expiresAt, .ok row⟩)
      ∨ (l c).changed = some (userId, hash) := by
    by_cases hc : c = i
    · subst hc
      rw [Function.update_self] at hchanged
      exact changed_of_next hchanged
    · rw [Function.update_of_ne hc] at hchanged
      exact .inr hchanged
  rcases hwhen with ⟨expiresAt, row, rfl⟩ | hset
  · rcases user_of_next haccepts hmem with ⟨-, hnot⟩ | ⟨_, _, _, _, hop⟩ | ⟨_, _, _, hstep, hpass⟩
    · exact absurd (hid ▸ rfl) (hnot hash expiresAt row)
    · cases hop
    · cases hstep
      exact hpass
  · have hquiet : ∀ {P : Prop}, ((l i).accepts step → (l i).changed = none) →
        ¬ SessionOp (fun _ => True) step.op → P := by
      intro P hnone hop
      by_cases hi : i = c
      · have hnone := hnone hlocal
        rw [hi, hset] at hnone
        cases hnone
      · exact absurd (hothers hi) hop
    rcases user_of_next haccepts hmem with ⟨⟨old, hold, hsame, hpass⟩, -⟩ | ⟨_, _, _, _, hop⟩
      | ⟨_, _, _, rfl, -⟩
    · exact hpass.symm.trans (h userId hash hset old hold (hsame.trans hid))
    · obtain ⟨o, answer⟩ := step
      cases (hop : o = _)
      exact hquiet (fun hnone => hnone) fun hfalse => hfalse
    · exact hquiet (fun hnone => hnone) fun hfalse => hfalse

end Password

/-! ## Histories -/

section History

variable {state : AuthState} {requests : Nat → AccountRequest} {s : AccountWorld}
  {before after : AccountHistory} {c deleted : Nat} {userId : Uuid} {hash : String}

/-- What a session has read before it stores a token. -/
theorem read_of_issue {first second : AccountHistory} {i : Nat} {tokenHash : String}
    {expiresAt : Timestamp} {created : Except PasteurError RefreshToken}
    (h : AccountsInterleaved state requests s
      (first ++ (i, ⟨.createRefreshToken userId tokenHash expiresAt, created⟩) :: second))
    (hsession : (requests i).IsSession) :
    (∃ req user stored, requests i = .login req ∧ (i, ⟨.getUserByEmail req.email, .ok user⟩) ∈ first
        ∧ user.id = userId ∧ user.passwordHash = some stored
        ∧ state.argon2.verify req.password stored = true)
      ∨ ∃ presented lookup parent, requests i = .refresh presented
        ∧ (i, ⟨.getRefreshToken lookup, .ok parent⟩) ∈ first ∧ parent.userId = userId := by
  obtain ⟨rest, out, hrun⟩ := h.own i
  rw [ownSteps_append, ownSteps_cons, if_pos rfl, List.append_assoc] at hrun
  cases hrequest : requests i with
  | login req =>
      rw [hrequest] at hrun
      obtain ⟨out, hrun⟩ := Program.Runs.of_bind_pure hrun
      obtain ⟨fetched, tail, htr, htail⟩ := login_runs hrun
      have hsplit : _ = ([⟨.getUserByEmail req.email, fetched⟩] : List (Step AccountStore)) ++ tail := htr
      obtain ⟨hread, hissue⟩ := after_heads hsplit (fun hmem => by cases List.mem_singleton.1 hmem)
      obtain ⟨user, stored, rfl, hid, hstored, hverify⟩ := htail _ hissue
      exact .inl ⟨req, user, stored, rfl, mem_ownSteps.1 (hread List.mem_cons_self), hid, hstored, hverify⟩
  | refresh presented =>
      rw [hrequest] at hrun
      obtain ⟨out, hrun⟩ := Program.Runs.of_bind_pure hrun
      rcases refresh_runs_lookup hrun with hnone | ⟨lookup, parent, now, user, tail, htr, htail⟩
      · have hop : False := hnone ⟨.createRefreshToken userId tokenHash expiresAt, created⟩ (by simp)
        exact hop.elim
      · have hsplit : _ = ([⟨.getRefreshToken lookup, .ok parent⟩, ⟨.now, now⟩,
          ⟨.getUserById parent.userId, .ok user⟩] : List (Step AccountStore)) ++ tail := htr
        obtain ⟨hread, hissue⟩ := after_heads hsplit fun hmem => by
          simp only [List.mem_cons, List.not_mem_nil, or_false] at hmem
          rcases hmem with hmem | hmem | hmem <;> cases hmem
        have hid : userId = user.id := htail _ hissue
        -- The user that was read is the owner of the token.
        obtain ⟨earlier, haccepts⟩ := h.accepts_of_mem
          (List.mem_append_left _ (mem_ownSteps.1 (hread (by simp :
            (⟨.getUserById parent.userId, .ok user⟩ : Step AccountStore) ∈ _))))
        have howner : some user = _ := haccepts
        obtain ⟨-, huser⟩ := Table.find?_eq_some_iff.1 howner.symm
        exact .inr ⟨presented, lookup, parent, rfl, mem_ownSteps.1 (hread List.mem_cons_self),
          huser.symm.trans hid.symm⟩
  | _ =>
      rw [hrequest] at hsession
      exact hsession.elim

theorem PasswordChange.of_append {later : AccountHistory}
    (h : PasswordChange state requests s before c deleted (after ++ later) userId hash) :
    PasswordChange state requests s before c deleted after userId hash := by
  refine ⟨?_, h.changed, h.others⟩
  have hassoc : before ++ (c, ⟨.deleteRefreshTokensOf userId, .ok deleted⟩) :: (after ++ later)
      = (before ++ (c, ⟨.deleteRefreshTokensOf userId, .ok deleted⟩) :: after) ++ later := by simp
  exact (hassoc ▸ h.history).of_append

/-- The hash that a request has set stays with its user when all others are logins and refreshes. -/
theorem passwordSet_of_history (h : AccountsInterleaved state requests s before)
    (hothers : ∀ i, i ≠ c → (requests i).IsSession) :
    PasswordSet c (accountsAfter state s before) (accountLocals requests before) := by
  refine h.invariant_of_start (J := PasswordSet c)
    (C := fun _ _ i step => i ≠ c → SessionOp (fun _ => True) step.op) AccountRequest.locally_safe
    (fun _ _ _ _ hset haccepts hlocal hsession => hset.kept haccepts hlocal hsession)
    (fun _ _ hnone => by cases hnone) fun first i step second hsplit hne => ?_
  obtain ⟨rest, out, hrun⟩ := h.own i
  have hmem : step ∈ ownSteps i before ++ rest :=
    List.mem_append_left _ (mem_ownSteps.2 (by rw [hsplit]; simp))
  exact (hothers i hne).only hrun step hmem

/-- A request that has set a password remembers it. -/
theorem changed_of_history {later : AccountHistory} {expiresAt : Option Timestamp} {user : User}
    (h : AccountsInterleaved state requests s
      (before ++ (c, ⟨.updatePassword userId hash expiresAt, .ok user⟩) :: later)) :
    (accountLocals requests
      (before ++ (c, ⟨.updatePassword userId hash expiresAt, .ok user⟩) :: later) c).changed
        = some (userId, hash) := by
  have hassoc : before ++ (c, ⟨.updatePassword userId hash expiresAt, .ok user⟩) :: later
      = (before ++ [(c, ⟨.updatePassword userId hash expiresAt, .ok user⟩)]) ++ later := by simp
  rw [hassoc] at h ⊢
  refine h.invariant (J := fun _ l => (l c).changed = some (userId, hash)) (C := fun _ _ _ _ => True)
    AccountRequest.locally_safe (fun s l i step hchanged _ hlocal _ => ?_) ?_ fun _ _ _ _ _ => trivial
  · by_cases hc : c = i
    · subst hc
      rw [Function.update_self]
      exact changed_kept hchanged hlocal
    · rwa [Function.update_of_ne hc]
  · rw [Interleaved.locals_snoc, Function.update_self]
    rfl

theorem PasswordChange.changed_local
    (h : PasswordChange state requests s before c deleted after userId hash) :
    (accountLocals requests
      (before ++ (c, ⟨.deleteRefreshTokensOf userId, .ok deleted⟩) :: after) c).changed
        = some (userId, hash) := by
  obtain ⟨expiresAt, user, hchanged⟩ := h.changed
  obtain ⟨earlier, between, rfl⟩ := List.append_of_mem hchanged
  have hhistory := h.history
  rw [List.append_assoc, List.cons_append] at hhistory ⊢
  exact changed_of_history hhistory

/-- After the deletion the user has the new hash. -/
theorem PasswordChange.hash_of_user
    (h : PasswordChange state requests s before c deleted after userId hash) {user : User}
    (hmem : user ∈ (accountsAfter state s
      (before ++ (c, ⟨.deleteRefreshTokensOf userId, .ok deleted⟩) :: after)).users)
    (hid : user.id = userId) : user.passwordHash = some hash :=
  passwordSet_of_history h.history h.others userId hash h.changed_local user hmem hid

/-- After the deletion only a session stores a token. -/
theorem PasswordChange.session_of_issue {i : Nat} {tokenHash : String} {expiresAt : Timestamp}
    {created : Except PasteurError RefreshToken} {id : Uuid}
    (h : PasswordChange state requests s before c deleted
      (after ++ [(i, ⟨.createRefreshToken id tokenHash expiresAt, created⟩)]) userId hash) :
    (requests i).IsSession := by
  refine h.others i ?_
  rintro rfl
  have hhistory := h.history
  rw [← List.cons_append, ← List.append_assoc] at hhistory
  have hnone := (hhistory.locally_accepts AccountRequest.locally_safe).2.2
  cases hnone.symm.trans h.of_append.changed_local

/-- A token that is stored after the deletion, when the sessions up to then are new ones. -/
theorem PasswordChange.descends_of_issue {i : Nat} {token : RefreshToken}
    (h : PasswordChange state requests s before c deleted
      (after ++ [(i, ⟨.createRefreshToken token.userId token.tokenHash token.expiresAt, .ok token⟩)])
      userId hash)
    (hafresh : IssuesAfresh state requests before
      (after ++ [(i, ⟨.createRefreshToken token.userId token.tokenHash token.expiresAt, .ok token⟩)])
      userId hash)
    (hearlier : ∀ first second, after = first ++ second → OnlySessionsOf state requests s
      (before ++ (c, ⟨.deleteRefreshTokensOf userId, .ok deleted⟩) :: first) userId hash)
    (hid : token.userId = userId) :
    Descends state requests (before ++ (c, ⟨.deleteRefreshTokensOf userId, .ok deleted⟩) :: (after
      ++ [(i, ⟨.createRefreshToken token.userId token.tokenHash token.expiresAt, .ok token⟩)]))
      hash token := by
  subst hid
  obtain ⟨hlogin, hrefresh⟩ := hafresh i token.tokenHash token.expiresAt token (by simp)
  have hsession := h.session_of_issue
  have hhistory := h.history
  rw [← List.cons_append, ← List.append_assoc] at hhistory ⊢
  have hstored : (i, (⟨.createRefreshToken token.userId token.tokenHash token.expiresAt, .ok token⟩ :
      Step AccountStore)) ∈ (before ++ (c, ⟨.deleteRefreshTokensOf token.userId, .ok deleted⟩) :: after)
        ++ [(i, ⟨.createRefreshToken token.userId token.tokenHash token.expiresAt, .ok token⟩)] := by simp
  rcases read_of_issue hhistory hsession with
    ⟨req, user, stored, hrequest, hread, huser, hpassword, hverify⟩
      | ⟨presented, lookup, parent, hrequest, hread, hparent⟩
  · -- a login has verified the new hash: the assumption says so of a read before the change
    have hhash : user.passwordHash = some hash := by
      rcases List.mem_append.1 hread with hin | hin
      · exact hlogin _ _ hin
      · rcases List.mem_cons.1 hin with heq | hin
        · cases heq
        · obtain ⟨first, second, rfl⟩ := List.append_of_mem hin
          have hstart := h.of_append.of_append
          have hread' := h.of_append.history
          rw [← List.cons_append, ← List.append_assoc] at hread'
          exact hstart.hash_of_user hread'.accepts.1 huser
    rw [hhash] at hpassword
    cases hpassword
    exact .login hrequest (List.mem_append_left _ hread) hhash hverify hstored
  · -- the token of a refresh descends: after the change there are no others
    have hdescends : Descends state requests
        (before ++ (c, ⟨.deleteRefreshTokensOf token.userId, .ok deleted⟩) :: after) hash parent := by
      rcases List.mem_append.1 hread with hin | hin
      · exact (hrefresh _ _ hin).mono (List.subset_append_left _ _)
      · rcases List.mem_cons.1 hin with heq | hin
        · cases heq
        · obtain ⟨first, second, rfl⟩ := List.append_of_mem hin
          have hread' := h.of_append.history
          rw [← List.cons_append, ← List.append_assoc] at hread' ⊢
          have hnew := hearlier first _ rfl parent hread'.accepts.1 hparent
          exact hnew.mono (List.subset_append_left _ _)
    exact .refresh hrequest (List.mem_append_left _ hread) (hdescends.mono (List.subset_append_left _ _)) hstored

/-- After a password change only sessions with the new password are left, where no request stores what it
    has read before. -/
theorem passwordChange_revokes (state : AuthState) (requests : Nat → AccountRequest) (s : AccountWorld)
    (before : AccountHistory) (c deleted : Nat) (after : AccountHistory) (userId : Uuid) (hash : String)
    (h : PasswordChange state requests s before c deleted after userId hash)
    (hafresh : IssuesAfresh state requests before after userId hash) :
    OnlySessionsOf state requests s
      (before ++ (c, ⟨.deleteRefreshTokensOf userId, .ok deleted⟩) :: after) userId hash := by
  -- Induction on the steps after the deletion: a token read there was left by a shorter history.
  induction hn : after.length using Nat.strong_induction_on generalizing after with
  | _ n ih =>
    have hearlier : ∀ first second, after = first ++ second → second ≠ [] → OnlySessionsOf state requests s
        (before ++ (c, ⟨.deleteRefreshTokensOf userId, .ok deleted⟩) :: first) userId hash := by
      rintro first second rfl hsecond
      have hlength : first.length < n := by
        rw [← hn, List.length_append]
        exact Nat.lt_add_of_pos_right (List.length_pos_of_ne_nil hsecond)
      exact ih first.length hlength first h.of_append
        (fun i tokenHash expiresAt token hmem => hafresh i _ _ _ (List.mem_append_left _ hmem)) rfl
    intro token hmem hid
    rcases List.eq_nil_or_concat after with rfl | ⟨earlier, ⟨i, step⟩, hafter⟩
    · rw [accountsAfter, after_sharedSteps_snoc] at hmem
      have hleft : token ∈ (accountsAfter state s before).refreshTokens ∧ token.userId ≠ userId := by
        simpa [AccountWorld.next, Table.mem_delete] using hmem
      exact absurd hid hleft.2
    · rw [List.concat_eq_append] at hafter
      subst hafter
      have hhistory := h.history
      rw [← List.cons_append, ← List.append_assoc] at hhistory hmem
      rw [accountsAfter, after_sharedSteps_snoc] at hmem
      rcases refreshToken_of_next hhistory.accepts hmem with hold | rfl
      · have hnew := hearlier earlier _ rfl (by simp) token hold hid
        refine hnew.mono ?_
        rw [← List.cons_append, ← List.append_assoc]
        exact List.subset_append_left _ _
      · refine h.descends_of_issue hafresh (fun first second hsplit => ?_) hid
        exact hearlier first (second ++ [_]) (by rw [hsplit, List.append_assoc]) (by simp)

end History

/-! ## Two histories -/

/-- The user 3 changes its password up to the deletion of its sessions. -/
def changeSteps : List (Step AccountStore) :=
  [⟨.getUserById 3, .ok (sampleUser 3 "ann" "user")⟩, ⟨.getLastPasswords 3 5, .ok []⟩,
    ⟨.hashPassword "new", "$argon2id$new"⟩,
    ⟨.updatePassword 3 "$argon2id$new" none, .ok sampleChangedUser⟩,
    ⟨.pushPassword 3 "$argon2id$new", .ok ()⟩, ⟨.purgePasswords 3 5, .ok ()⟩]

theorem changeSteps_runs :
    ((AccountRequest.changePassword ⟨3, 10, "user"⟩ "old" "new").serve sampleAuthState).Runs anyAnswer
      (changeSteps ++ [⟨.deleteRefreshTokensOf 3, .ok (1 : Nat)⟩]) (.ok .done) :=
  .op trivial (.op trivial (.op trivial (.op trivial (.op trivial (.op trivial (.op trivial (.pure _)))))))

/-- A login with the new password. -/
def newLoginSteps : List (Step AccountStore) :=
  ⟨.getUserByEmail "ann", .ok sampleChangedUser⟩ :: issueSteps 8 "second"

/-- A password change and a login, the other requests present no token. -/
def changeAndLogin : Nat → AccountRequest
  | 0 => .changePassword ⟨3, 10, "user"⟩ "old" "new"
  | 1 => .login ⟨none, none, "ann", "new"⟩
  | _ => .refresh ⟨none, none⟩

theorem passwordChange_revokes_sample :
    PasswordChange sampleAuthState changeAndLogin sampleSessions (changeSteps.map (0, ·)) 0 1
        (newLoginSteps.map (1, ·)) 3 "$argon2id$new"
      ∧ OnlySessionsOf sampleAuthState changeAndLogin sampleSessions
        (changeSteps.map (0, ·) ++ (0, ⟨.deleteRefreshTokensOf 3, .ok (1 : Nat)⟩) :: newLoginSteps.map (1, ·))
        3 "$argon2id$new" := by
  have hchange : PasswordChange sampleAuthState changeAndLogin sampleSessions (changeSteps.map (0, ·)) 0 1
      (newLoginSteps.map (1, ·)) 3 "$argon2id$new" := by
    refine ⟨⟨⟨rfl, rfl, rfl, ⟨sampleUser 3 "ann" "user", rfl, rfl⟩, trivial, trivial, trivial,
      ⟨List.mem_cons_of_mem _ List.mem_cons_self, rfl⟩, trivial, ⟨rfl, by decide⟩, trivial,
      ⟨rfl, by decide, rfl⟩, trivial⟩, fun i => ?_⟩, ⟨none, sampleChangedUser, ?_⟩, fun i hi => ?_⟩
    · match i with
      | 0 =>
          have hown : ownSteps 0 (changeSteps.map (0, ·)
              ++ (0, ⟨.deleteRefreshTokensOf 3, .ok (1 : Nat)⟩) :: newLoginSteps.map (1, ·))
              = changeSteps ++ [⟨.deleteRefreshTokensOf 3, .ok (1 : Nat)⟩] := rfl
          exact ⟨[], _, by rw [List.append_nil, hown]; exact changeSteps_runs⟩
      | 1 => exact ⟨[], _, .op trivial (.op trivial (.op trivial (.op trivial (.op trivial (.pure _)))))⟩
      | i + 2 => exact ⟨[], _, .throw _⟩
    · exact List.mem_map.2 ⟨_, by simp [changeSteps], rfl⟩
    · match i with
      | 0 => exact absurd rfl hi
      | 1 => trivial
      | i + 2 => trivial
  refine ⟨hchange, passwordChange_revokes _ _ _ _ _ _ _ _ _ hchange ?_⟩
  -- Only the login stores a token, and it has done nothing before the deletion.
  intro i tokenHash expiresAt token hmem
  have hone : i = 1 := by
    obtain ⟨step, -, heq⟩ := List.mem_map.1 hmem
    exact (congrArg Prod.fst heq).symm
  have hnone : ∀ step, (i, step) ∉ changeSteps.map (0, ·) := by
    intro step hstep
    obtain ⟨step, -, heq⟩ := List.mem_map.1 hstep
    rw [hone] at heq
    cases heq
  exact ⟨fun _ _ hread => absurd hread (hnone _), fun _ _ hread => absurd hread (hnone _)⟩

/-- A password change and a refresh, the other requests present no token. -/
def changeAndRefresh : Nat → AccountRequest
  | 0 => .changePassword ⟨3, 10, "user"⟩ "old" "new"
  | 1 => .refresh ⟨none, some "first"⟩
  | _ => .refresh ⟨none, none⟩

/-- The refresh has looked its token up before the deletion, and stores a new one after it. -/
def refreshedAcross : AccountHistory :=
  readSteps.map (1, ·) ++ changeSteps.map (0, ·)

/-- What the refresh does when the sessions are deleted. -/
def refreshedLate : AccountHistory :=
  (⟨.deleteRefreshToken 7, .ok ()⟩ :: issueSteps 8 "second").map (1, ·)

/-- An old session outlives the change. -/
theorem passwordChange_keeps_session :
    ¬ ∀ (s : AccountWorld) (requests : Nat → AccountRequest) (before : AccountHistory) (c deleted : Nat)
      (after : AccountHistory) (userId : Uuid) (hash : String),
      PasswordChange sampleAuthState requests s before c deleted after userId hash →
      (∀ i, ∃ out, Returns anyAnswer (AccountRequest.serve sampleAuthState) requests
        (before ++ (c, ⟨.deleteRefreshTokensOf userId, .ok deleted⟩) :: after) i out) →
      OnlySessionsOf sampleAuthState requests s
        (before ++ (c, ⟨.deleteRefreshTokensOf userId, .ok deleted⟩) :: after) userId hash := by
  intro h
  have hreturns : ∀ i, ∃ out, Returns anyAnswer (AccountRequest.serve sampleAuthState) changeAndRefresh
      (refreshedAcross ++ (0, ⟨.deleteRefreshTokensOf 3, .ok (1 : Nat)⟩) :: refreshedLate) i out := by
    intro i
    have hchanger : ownSteps 0 (refreshedAcross ++ (0, ⟨.deleteRefreshTokensOf 3, .ok (1 : Nat)⟩) :: refreshedLate)
        = changeSteps ++ [⟨.deleteRefreshTokensOf 3, .ok (1 : Nat)⟩] := rfl
    have hrefresher : ownSteps 1 (refreshedAcross ++ (0, ⟨.deleteRefreshTokensOf 3, .ok (1 : Nat)⟩) :: refreshedLate)
        = rotationSteps 8 "second" := rfl
    rcases i with _ | _ | i
    · exact ⟨_, by rw [Returns, hchanger]; exact changeSteps_runs⟩
    · obtain ⟨pair, hrun⟩ := rotation_second
      exact ⟨_, by rw [Returns, hrefresher]; exact hrun⟩
    · exact ⟨_, .throw _⟩
  have hchange : PasswordChange sampleAuthState changeAndRefresh sampleSessions refreshedAcross 0 1
      refreshedLate 3 "$argon2id$new" := by
    refine ⟨⟨⟨⟨List.mem_cons_self, rfl⟩, trivial, rfl, rfl, rfl, rfl,
      ⟨sampleUser 3 "ann" "user", rfl, rfl⟩, trivial, trivial, trivial, trivial, trivial,
      ⟨rfl, by decide⟩, trivial, ⟨rfl, by decide, rfl⟩, trivial⟩, fun i => ?_⟩,
      ⟨none, sampleChangedUser, ?_⟩, fun i hi => ?_⟩
    · obtain ⟨out, hrun⟩ := hreturns i
      exact ⟨[], out, by rw [List.append_nil]; exact hrun⟩
    · exact List.mem_append_right _ (List.mem_map.2 ⟨_, by simp [changeSteps], rfl⟩)
    · rcases i with _ | _ | i
      · exact absurd rfl hi
      · trivial
      · trivial
  -- Without a login no token goes back to one.
  have hnone : ∀ tr token, ¬ Descends sampleAuthState changeAndRefresh tr "$argon2id$new" token := by
    intro tr token hdescends
    induction hdescends with
    | @login i _ _ _ hrequest _ _ _ _ =>
        rcases i with _ | _ | i
        · cases hrequest
        · cases hrequest
        · cases hrequest
    | refresh _ _ _ _ ih => exact ih
  exact hnone _ _ (h _ _ _ _ _ _ _ _ hchange hreturns
    ⟨8, 3, "sha256:second", 2 + 7 * microsecondsPerDay, 2⟩ List.mem_cons_self rfl)

end Godwit
