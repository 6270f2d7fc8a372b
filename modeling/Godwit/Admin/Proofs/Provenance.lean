import Godwit.Admin.Proofs.SessionRevocation

set_option autoImplicit false

/-! # Where sessions come from and where they end

Tokens are issued by logins, by callbacks of an identity provider and by refreshes only, and behind every
one of them stands a password that was verified or an identity that a provider has vouched for: a refresh
presents a token that was stored when it was looked up, and that token had been issued in turn. Once a token
has been deleted, no refresh that looks it up later goes on. All of this holds however the statements of the
requests interleave and whichever of them fail. -/

namespace Godwit

/-! ## What a request issues -/

/-- The user an operation issues an access token or a refresh token to. -/
def AccountOp.issuedTo : AccountOp → Option Uuid
  | .issueAccessToken claims => some claims.userId
  | .createRefreshToken userId _ _ => some userId
  | _ => none

/-- An operation that issues no token. -/
def AccountOp.Unissued (o : AccountOp) : Prop := o.issuedTo = none

/-- The claims that a user gets. -/
def User.claims (user : User) : Claims := ⟨user.id, user.organizationId.getD Uuid.nil, user.role⟩

/-- The provider that the callback names is configured and vouches for the identity. -/
def Identified (providers : List OidcClient) (providerId : String) (params : OidcCallback)
    (identity : OidcIdentity) : Prop :=
  ∃ client, providers.find? (fun p => p.id = providerId) = some client ∧ client.discovered = true
    ∧ client.exchangeCode params.code params.state "nonce" = some identity

/-- What a request must have been told before it issues a token to the user: a login has read the user and
    verified its password, a callback has read or created the user of the identity that its provider vouches
    for, a refresh has found the token it presents, seen that it is still valid, read its owner and deleted
    it. -/
inductive Warrant (state : AuthState) : SessionRequest → List (Step AccountStore) → User → Prop
  | password {req : LoginRequest} {user : User} {hash : String} {rest : List (Step AccountStore)}
      (hhash : user.passwordHash = some hash) (hverify : state.argon2.verify req.password hash = true) :
      Warrant state (.account (.login req)) (⟨.getUserByEmail req.email, .ok user⟩ :: rest) user
  | identity {providers : List OidcClient} {providerId : String} {params : OidcCallback}
      {identity : OidcIdentity} {user : User} {rest : List (Step AccountStore)}
      (hidentified : Identified providers providerId params identity) :
      Warrant state (.oidcCallback providers providerId params)
        (⟨.getUserByEmail identity.email, .ok user⟩ :: rest) user
  | newcomer {providers : List OidcClient} {providerId : String} {params : OidcCallback}
      {identity : OidcIdentity} {e : PasteurError} {user : User} {rest : List (Step AccountStore)}
      (hidentified : Identified providers providerId params identity) :
      Warrant state (.oidcCallback providers providerId params) (⟨.getUserByEmail identity.email, .error e⟩
        :: ⟨.createUser identity.email identity.name .user none, .ok user⟩ :: rest) user
  | token {presented : PresentedToken} {token : String} {parent : RefreshToken} {now : Timestamp}
      {user : User} {rest : List (Step AccountStore)} (htoken : presented.token = some token)
      (hvalid : now ≤ parent.expiresAt) :
      Warrant state (.account (.refresh presented)) (⟨.getRefreshToken (state.hashToken token), .ok parent⟩
        :: ⟨.now, now⟩ :: ⟨.getUserById parent.userId, .ok user⟩
        :: ⟨.deleteRefreshToken parent.id, .ok ()⟩ :: rest) user

/-- The operation issues nothing, or to a user with a warrant, and with the claims of that user. -/
def Warranted (state : AuthState) (r : SessionRequest) (told : List (Step AccountStore)) :
    AccountOp → Prop
  | .issueAccessToken claims => ∃ user, Warrant state r told user ∧ claims = user.claims
  | .createRefreshToken userId _ _ => ∃ user, Warrant state r told user ∧ userId = user.id
  | _ => True

/-- A request and its steps so far; it issues tokens with a warrant only. -/
abbrev issuing (state : AuthState) : Monitor AccountStore where
  State := SessionRequest × List (Step AccountStore)
  next l step := (l.1, l.2 ++ [step])
  accepts l step := Warranted state l.1 l.2 step.op

theorem Warrant.append {state : AuthState} {r : SessionRequest} {told : List (Step AccountStore)} {user : User}
    (h : Warrant state r told user) (more : List (Step AccountStore)) : Warrant state r (told ++ more) user := by
  cases h with
  | password hhash hverify => exact .password hhash hverify
  | identity hidentified => exact .identity hidentified
  | newcomer hidentified => exact .newcomer hidentified
  | token htoken hvalid => exact .token htoken hvalid

/-- The user of a warrant for what is issued. -/
theorem Warranted.of_issued {state : AuthState} {r : SessionRequest} {told : List (Step AccountStore)}
    {o : AccountOp} {userId : Uuid} (h : Warranted state r told o) (hissued : o.issuedTo = some userId) :
    ∃ user, Warrant state r told user ∧ user.id = userId := by
  cases o
  case issueAccessToken claims =>
    obtain ⟨user, hwarrant, rfl⟩ := h
    exact ⟨user, hwarrant, Option.some.inj hissued⟩
  case createRefreshToken id hash expiresAt =>
    obtain ⟨user, hwarrant, rfl⟩ := h
    exact ⟨user, hwarrant, Option.some.inj hissued⟩
  all_goals cases hissued

theorem warranted_of_unissued {state : AuthState} {r : SessionRequest} {told : List (Step AccountStore)}
    {o : AccountOp} (h : o.Unissued) : Warranted state r told o := by
  cases o
  case issueAccessToken => cases h
  case createRefreshToken => cases h
  all_goals trivial

section Local

variable {state : AuthState} {env : Environment AccountStore} {r : SessionRequest}
  {told : List (Step AccountStore)} {α β : Type}

/-- A program that issues nothing. -/
theorem keeps_of_unissued {l : (issuing state).State} {p : AccountApp α}
    (h : p.Only AccountOp.Unissued) : (issuing state).Keeps env l p := by
  intro tr out hrun
  have hsafe : ∀ l, (issuing state).Safe l tr := by
    have hsteps := hrun.only h
    clear hrun
    induction tr with
    | nil => exact fun _ => trivial
    | cons step rest ih =>
        obtain ⟨hstep, hrest⟩ := List.forall_mem_cons.1 hsteps
        exact fun l => ⟨warranted_of_unissued hstep, ih hrest _⟩
  refine ⟨hsafe l, ?_⟩
  cases out <;> trivial

theorem issueTokenPair_warranted {user : User} (h : Warrant state r told user) :
    (issuing state).Keeps env (r, told) (issueTokenPair state user) := by
  refine .perform fun _ => ⟨⟨user, h, rfl⟩, .ofExcept_bind fun accessToken => ?_⟩
  refine .perform fun generated => ⟨trivial, .perform fun now => ⟨trivial, .perform fun created => ⟨?_, ?_⟩⟩⟩
  · exact ⟨user, ((h.append _).append _).append _, rfl⟩
  · exact .ofExcept_bind fun _ => .ofExcept_bind fun access => .ofExcept_bind fun refresh => .pure

theorem refuseLogin_unissued (ip : String) : (refuseLogin ip).Only AccountOp.Unissued := by
  refine .perform rfl fun reply => ?_
  split <;> exact trivial

theorem passwordExpired_unissued (user : User) : (passwordExpired user).Only AccountOp.Unissued := by
  unfold passwordExpired
  split
  · exact trivial
  · exact .perform rfl fun _ => trivial

theorem login_warranted (req : LoginRequest) :
    (issuing state).Keeps env (.account (.login req), []) (login state req) := by
  refine .perform fun fetched => ⟨trivial, ?_⟩
  cases fetched with
  | error e => exact keeps_of_unissued (refuseLogin_unissued _)
  | ok user =>
      dsimp only
      split
      · exact .throw
      case h_2 hash hhash =>
        split
        case isTrue hverify =>
          refine .bind (issueTokenPair_warranted (.password hhash hverify)) fun pair l => keeps_of_unissued ?_
          refine .bind ?_ fun _ => trivial
          unfold mustChange
          split
          · exact trivial
          · exact passwordExpired_unissued user
        · exact keeps_of_unissued (refuseLogin_unissued _)

/-- A check that computes, with what its success says. -/
theorem keeps_orFail {M : Monitor AccountStore} {l : M.State} {r : Except ApiError α} {f : α → AccountApp β}
    (h : ∀ a, r = .ok a → M.Keeps env l (f a)) : M.Keeps env l (orFail r >>= f) := by
  cases r with
  | error e => exact .throw
  | ok a => exact h a rfl

theorem oidcCallback_warranted (providers : List OidcClient) (providerId : String) (params : OidcCallback) :
    (issuing state).Keeps env (.oidcCallback providers providerId params, [])
      (oidcCallback state providers providerId params) := by
  refine keeps_orFail fun client hclient => keeps_orFail fun _ hthere => keeps_orFail fun identity hexchange => ?_
  have hidentified : Identified providers providerId params identity := by
    refine ⟨client, ?_, ?_, ?_⟩
    · split at hclient
      · rwa [← Except.ok.inj hclient]
      · cases hclient
    · split at hthere
      · assumption
      · cases hthere
    · split at hexchange
      · rwa [← Except.ok.inj hexchange]
      · cases hexchange
  refine .perform fun fetched => ⟨trivial, ?_⟩
  cases fetched with
  | ok user => exact issueTokenPair_warranted (.identity hidentified)
  | error e =>
      refine .perform fun created => ⟨trivial, ?_⟩
      cases created with
      | error e => exact .throw
      | ok user => exact issueTokenPair_warranted (.newcomer hidentified)

theorem refresh_warranted (presented : PresentedToken) :
    (issuing state).Keeps env (.account (.refresh presented), []) (refresh state presented) := by
  unfold refresh
  split
  · exact .throw
  case h_2 token htoken =>
    refine .perform fun fetched => ⟨trivial, ?_⟩
    cases fetched with
    | error e => exact .throw
    | ok stored =>
        refine .perform fun now => ⟨trivial, ?_⟩
        split
        · exact .perform fun _ => ⟨trivial, .throw⟩
        case isFalse hvalid =>
          refine .perform fun fetched => ⟨trivial, ?_⟩
          cases fetched with
          | error e => exact .throw
          | ok user =>
              refine .perform fun executed => ⟨trivial, ?_⟩
              cases executed with
              | error e => exact .throw
              | ok done => exact issueTokenPair_warranted (.token htoken (Int.not_lt.1 hvalid))

theorem doPasswordChange_unissued (userId : Uuid) (newPassword : String) :
    (doPasswordChange state userId newPassword).Only AccountOp.Unissued := by
  refine (doPasswordChange_only userId newPassword).mono fun o ho => ?_
  cases o
  case issueAccessToken => exact ho.elim
  case createRefreshToken => exact ho.elim
  all_goals rfl

/-- Requests that are no sessions issue nothing. -/
theorem AccountRequest.unissued {r : AccountRequest} (h : ¬ r.IsSession) :
    (r.serve state).Only AccountOp.Unissued := by
  cases r with
  | login req => exact absurd trivial h
  | refresh presented => exact absurd trivial h
  | logout presented =>
      refine .bind ?_ fun _ => trivial
      unfold Godwit.logout
      split
      · exact trivial
      · exact .perform rfl fun _ => .ofExcept _
  | changePassword claims currentPassword newPassword =>
      refine .bind (.perform rfl fun _ => .bind (.ofExcept _) fun user => ?_) fun _ => trivial
      split
      · exact trivial
      · split
        · exact doPasswordChange_unissued _ _
        · exact trivial
  | changeRequired claims newPassword =>
      refine .bind (.perform rfl fun _ => .bind (.ofExcept _) fun user => ?_) fun _ => trivial
      refine .bind (passwordExpired_unissued user) fun expired => ?_
      split
      · exact trivial
      · exact doPasswordChange_unissued _ _
  | adminResetPassword claims userId newPassword =>
      refine .bind (.bind (.ofExcept _) fun role => .bind (.ofExcept _) fun _ => ?_) fun _ => trivial
      refine .perform rfl fun _ => .bind (.ofExcept _) fun target => ?_
      refine .bind (.ofExcept _) fun _ => .bind (.ofExcept _) fun _ => ?_
      exact .bind (doPasswordChange_unissued _ _) fun _ => .perform rfl fun _ => .bind (.ofExcept _) fun _ => trivial
  | forgotPassword email =>
      refine .bind (.perform rfl fun fetched => ?_) fun _ => trivial
      split
      · exact trivial
      · refine .perform rfl fun generated => .perform rfl fun now => .perform rfl fun _ => ?_
        split
        · exact ⟨rfl, fun _ => trivial⟩
        · exact trivial
  | resetPassword token newPassword =>
      refine .bind (.perform rfl fun fetched => ?_) fun _ => trivial
      split
      · exact trivial
      · split
        · exact trivial
        · refine .perform rfl fun now => ?_
          split
          · exact trivial
          · exact .bind (doPasswordChange_unissued _ _) fun _ => .perform rfl fun _ => .ofExcept _
  | createUser claims req =>
      refine .bind (.bind (.ofExcept _) fun role => .bind (.ofExcept _) fun _ => ?_) fun _ => trivial
      exact .bind (.ofExcept _) fun _ => .perform rfl fun _ => .bind (.ofExcept _) fun _ => trivial
  | updateUser claims id req =>
      refine .bind (.bind (.ofExcept _) fun role => .bind (.ofExcept _) fun _ => ?_) fun _ => trivial
      refine .perform rfl fun _ => .bind (.ofExcept _) fun target => ?_
      refine .bind (.ofExcept _) fun _ => .bind (.ofExcept _) fun _ => ?_
      refine .bind (.ofExcept _) fun _ => .bind (.ofExcept _) fun _ => .bind ?_ fun updated => ?_
      · exact .perform rfl fun _ => .bind (.ofExcept _) fun current => .perform rfl fun _ => .ofExcept _
      · split
        · exact .perform rfl fun _ => .bind (.ofExcept _) fun _ => trivial
        · exact trivial
  | deleteUser claims id =>
      refine .bind (.bind (.ofExcept _) fun role => .bind (.ofExcept _) fun _ => ?_) fun _ => trivial
      refine .perform rfl fun _ => .bind (.ofExcept _) fun target => ?_
      exact .bind (.ofExcept _) fun _ => .bind (.ofExcept _) fun _ => .perform rfl fun _ => .ofExcept _

theorem me_unissued (claims : Claims) : (me claims).Only AccountOp.Unissued :=
  .perform rfl fun _ => .bind (.ofExcept _) fun _ => trivial

theorem revokeAllSessions_unissued (claims : Claims) : (revokeAllSessions claims).Only AccountOp.Unissued :=
  .perform rfl fun _ => .ofExcept _

/-- Every request issues tokens with a warrant only. -/
theorem SessionRequest.issues_warranted (r : SessionRequest) (tr : List (Step AccountStore))
    (out : Except ApiError SessionResponse) (hrun : (r.serve state).Runs env tr out) :
    (issuing state).Safe (r, []) tr := by
  have hkeeps : (issuing state).Keeps env (r, []) (r.serve state) := by
    cases r with
    | account req =>
        refine .bind ?_ fun _ _ => .pure
        by_cases hsession : req.IsSession
        · cases req with
          | login req => exact .bind (login_warranted req) fun _ _ => .pure
          | refresh presented => exact .bind (refresh_warranted presented) fun _ _ => .pure
          | _ => exact hsession.elim
        · exact keeps_of_unissued (AccountRequest.unissued hsession)
    | me claims => exact .bind (keeps_of_unissued (me_unissued claims)) fun _ _ => .pure
    | revokeAllSessions claims =>
        exact .bind (keeps_of_unissued (revokeAllSessions_unissued claims)) fun _ _ => .pure
    | oidcCallback providers providerId params =>
        exact .bind (oidcCallback_warranted providers providerId params) fun _ _ => .pure
  exact (hkeeps tr out hrun).1

theorem after_issuing (l : SessionRequest × List (Step AccountStore)) (tr : List (Step AccountStore)) :
    (issuing state).after l tr = (l.1, l.2 ++ tr) := by
  induction tr generalizing l with
  | nil => simp
  | cons step rest ih => simp [ih]

end Local

/-! ## Histories -/

/-- The requests, interleaved in any order. -/
abbrev SessionsInterleaved (state : AuthState) (requests : Nat → SessionRequest) (s : AccountWorld)
    (tr : AccountHistory) : Prop :=
  Interleaved (accountWorld state) anyAnswer (SessionRequest.serve state) requests s tr

/-- A verified password or a provider's word stands behind what request `i` has got to issue to the user: a
    login has read the user from the table and verified its password, or a callback has read or created the
    user of the identity that its provider vouches for, or a refresh has found in the table a token that is
    still valid, and that a request authenticated in turn had issued to the user. -/
inductive Authenticated (state : AuthState) (requests : Nat → SessionRequest) (s : AccountWorld) :
    AccountHistory → Nat → Uuid → Prop
  | password {before after : AccountHistory} {i : Nat} {req : LoginRequest} {user : User} {hash : String}
      (hrequest : requests i = .account (.login req)) (hthere : user ∈ (accountsAfter state s before).users)
      (hemail : user.email = req.email) (hhash : user.passwordHash = some hash)
      (hverify : state.argon2.verify req.password hash = true) :
      Authenticated state requests s (before ++ (i, ⟨.getUserByEmail req.email, .ok user⟩) :: after) i user.id
  | identity {before after : AccountHistory} {i : Nat} {step : Step AccountStore} {providers : List OidcClient}
      {providerId : String} {params : OidcCallback} {identity : OidcIdentity} {user : User}
      (hrequest : requests i = .oidcCallback providers providerId params)
      (hidentified : Identified providers providerId params identity)
      (hstep : step = ⟨.getUserByEmail identity.email, .ok user⟩
        ∨ step = ⟨.createUser identity.email identity.name .user none, .ok user⟩)
      (hthere : user ∈ (accountsAfter state s (before ++ [(i, step)])).users)
      (hemail : user.email = identity.email) :
      Authenticated state requests s (before ++ (i, step) :: after) i user.id
  | token {first second after : AccountHistory} {i j : Nat} {presented : PresentedToken} {token : String}
      {parent : RefreshToken} {now : Timestamp} (hrequest : requests i = .account (.refresh presented))
      (htoken : presented.token = some token) (hhash : parent.tokenHash = state.hashToken token)
      (hthere : parent ∈ (accountsAfter state s (first ++ (j, ⟨.createRefreshToken parent.userId
        parent.tokenHash parent.expiresAt, .ok parent⟩) :: second)).refreshTokens)
      (hclock : (⟨.now, now⟩ : Step AccountStore) ∈ ownSteps i after) (hvalid : now ≤ parent.expiresAt)
      (hparent : Authenticated state requests s first j parent.userId) :
      Authenticated state requests s ((first ++ (j, ⟨.createRefreshToken parent.userId
        parent.tokenHash parent.expiresAt, .ok parent⟩) :: second)
          ++ (i, ⟨.getRefreshToken (state.hashToken token), .ok parent⟩) :: after) i parent.userId

/-- The table has told the request of the user: it has read the row, or created it. -/
def HasRead (state : AuthState) (s : AccountWorld) (tr : AccountHistory) (i : Nat) (user : User) : Prop :=
  ∃ before step after, tr = before ++ (i, step) :: after
    ∧ user ∈ (accountsAfter state s (before ++ [(i, step)])).users
    ∧ (step = ⟨.getUserByEmail user.email, .ok user⟩ ∨ step = ⟨.getUserById user.id, .ok user⟩
      ∨ ∃ name, step = ⟨.createUser user.email name .user none, .ok user⟩)

/-- Whoever gets a token is authenticated, an access token carries what its request has read, and every
    refresh token that is stored was issued. -/
structure Vouched (state : AuthState) (requests : Nat → SessionRequest) (s : AccountWorld)
    (tr : AccountHistory) : Prop where
  authenticated : ∀ before i step after userId, tr = before ++ (i, step) :: after →
    step.op.issuedTo = some userId → Authenticated state requests s before i userId
  claims : ∀ before i claims issued after, tr = before ++ (i, ⟨.issueAccessToken claims, issued⟩) :: after →
    ∃ user, HasRead state s before i user ∧ claims = user.claims
  stored : ∀ token ∈ (accountsAfter state s tr).refreshTokens, ∃ before i after,
    tr = before ++ (i, ⟨.createRefreshToken token.userId token.tokenHash token.expiresAt, .ok token⟩) :: after

section History

variable {state : AuthState} {requests : Nat → SessionRequest} {s : AccountWorld}
  {tr before after : AccountHistory} {i : Nat}

/-- What a request does, it has a warrant for. -/
theorem warranted_of_history {step : Step AccountStore}
    (h : SessionsInterleaved state requests s (before ++ (i, step) :: after)) :
    Warranted state (requests i) (ownSteps i before) step.op := by
  have haccepts : Warranted state _ _ step.op := h.locally_accepts (L := issuing state)
    (SessionRequest.issues_warranted : ∀ r tr out, _ → (issuing state).Safe ((fun r => (r, [])) r) tr)
  rw [Interleaved.locals, after_issuing, List.nil_append] at haccepts
  exact haccepts

/-- From a store without refresh tokens, what is stored has been issued. -/
theorem issued_of_stored (hnone : s.refreshTokens.rows = []) (h : SessionsInterleaved state requests s tr)
    {token : RefreshToken} (hmem : token ∈ (accountsAfter state s tr).refreshTokens) :
    ∃ before i after, tr = before
      ++ (i, ⟨.createRefreshToken token.userId token.tokenHash token.expiresAt, .ok token⟩) :: after := by
  induction tr using List.reverseRecOn with
  | nil =>
      have hmem : token ∈ s.refreshTokens.rows := hmem
      rw [hnone] at hmem
      cases hmem
  | append_singleton earlier entry ih =>
      obtain ⟨i, step⟩ := entry
      rw [accountsAfter, after_sharedSteps_snoc] at hmem
      rcases refreshToken_of_next h.accepts hmem with hold | rfl
      · obtain ⟨before, j, after, rfl⟩ := ih h.of_append hold
        exact ⟨before, j, after ++ [(i, step)], by simp⟩
      · exact ⟨earlier, i, [], rfl⟩

/-- The owner of a token is the user that is read for it. -/
theorem id_of_getUserById (h : SessionsInterleaved state requests s tr) {id : Uuid} {user : User}
    (hmem : (i, (⟨.getUserById id, .ok user⟩ : Step AccountStore)) ∈ tr) : user.id = id := by
  obtain ⟨earlier, haccepts⟩ := h.accepts_of_mem hmem
  have hfind : some user = _ := haccepts
  exact (Table.find?_eq_some_iff.1 hfind.symm).2

/-- A user found by its address is in the table. -/
theorem found_by_email {email : String} {user : User}
    (h : SessionsInterleaved state requests s (before ++ (i, ⟨.getUserByEmail email, .ok user⟩) :: after)) :
    user ∈ (accountsAfter state s (before ++ [(i, ⟨.getUserByEmail email, .ok user⟩)])).users
      ∧ user.email = email := by
  rw [accountsAfter, after_sharedSteps_snoc]
  exact h.accepts

/-- A user that has just been created is in the table. -/
theorem created_in_table {email : String} {name : Option String} {role : Role} {organizationId : Option Uuid}
    {user : User} (h : SessionsInterleaved state requests s
      (before ++ (i, ⟨.createUser email name role organizationId, .ok user⟩) :: after)) :
    user ∈ (accountsAfter state s (before ++ [(i, ⟨.createUser email name role organizationId, .ok user⟩)])).users
      ∧ user.email = email := by
  obtain ⟨hfresh, -, hcreated⟩ := h.accepts
  rw [accountsAfter, after_sharedSteps_snoc]
  exact ⟨(Table.mem_insert_of_fresh hfresh).2 (.inr rfl), by rw [hcreated]⟩

/-- A request with a warrant for a user is authenticated as that user. -/
theorem authenticated_of_warrant (hnone : s.refreshTokens.rows = [])
    (h : SessionsInterleaved state requests s tr) {user : User}
    (hwarrant : Warrant state (requests i) (ownSteps i tr) user) :
    Authenticated state requests s tr i user.id := by
  -- Induction on the length of the history: the token that a refresh presents was issued earlier.
  induction hn : tr.length using Nat.strong_induction_on generalizing tr i user with
  | _ n ih =>
    generalize hrequest : requests i = r at hwarrant
    generalize hown : ownSteps i tr = told at hwarrant
    cases hwarrant with
    | password hhash hverify =>
        obtain ⟨before, after, rfl, -, -⟩ := exists_split_of_head hown
        have hread := h.accepts
        exact .password hrequest hread.1 hread.2 hhash hverify
    | identity hidentified =>
        obtain ⟨before, after, rfl, -, -⟩ := exists_split_of_head hown
        have hread := found_by_email h
        exact .identity hrequest hidentified (.inl rfl) hread.1 hread.2
    | newcomer hidentified =>
        obtain ⟨before, after, rfl, -, -⟩ := exists_split_of_ownSteps
          (show ownSteps i tr = [_] ++ _ from hown)
        have hcreated := created_in_table h
        exact .identity hrequest hidentified (.inr rfl) hcreated.1 hcreated.2
    | @token presented token parent now _ rest htoken hvalid =>
        obtain ⟨before, after, rfl, -, hafter⟩ := exists_split_of_head hown
        have hread := h.accepts
        obtain ⟨first, j, second, rfl⟩ := issued_of_stored hnone h.of_append hread.1
        have howner : user.id = parent.userId :=
          id_of_getUserById (i := i) h (List.mem_append_right _ (List.mem_cons_of_mem _
            (mem_ownSteps.1 (by rw [hafter]; simp))))
        -- The request that issued the token had a warrant of its own.
        obtain ⟨issuer, hissuer, hid⟩ := (warranted_of_history h.of_append).of_issued rfl
        have hparent := ih first.length (by rw [← hn]; simp) h.of_append.of_append hissuer rfl
        rw [hid] at hparent
        rw [howner]
        exact .token hrequest htoken hread.2 hread.1 (by rw [hafter]; simp) hvalid hparent

/-- The table has told a request of the user that it has a warrant for. -/
theorem hasRead_of_warrant (h : SessionsInterleaved state requests s tr) {user : User}
    (hwarrant : Warrant state (requests i) (ownSteps i tr) user) : HasRead state s tr i user := by
  generalize requests i = r at hwarrant
  generalize hown : ownSteps i tr = told at hwarrant
  cases hwarrant with
  | password hhash hverify =>
      obtain ⟨before, after, rfl, -, -⟩ := exists_split_of_head hown
      have hread := found_by_email h
      exact ⟨before, _, after, rfl, hread.1, .inl (by rw [hread.2])⟩
  | identity hidentified =>
      obtain ⟨before, after, rfl, -, -⟩ := exists_split_of_head hown
      have hread := found_by_email h
      exact ⟨before, _, after, rfl, hread.1, .inl (by rw [hread.2])⟩
  | newcomer hidentified =>
      obtain ⟨before, after, rfl, -, -⟩ := exists_split_of_ownSteps
          (show ownSteps i tr = [_] ++ _ from hown)
      have hcreated := created_in_table h
      exact ⟨before, _, after, rfl, hcreated.1, .inr (.inr ⟨_, by rw [hcreated.2]⟩)⟩
  | @token presented token parent now _ rest htoken hvalid =>
      obtain ⟨before, after, rfl, -, -⟩ := exists_split_of_ownSteps
          (show ownSteps i tr = [_, _] ++ _ from hown)
      have hread : some user = _ := h.accepts
      obtain ⟨hthere, hid⟩ := Table.find?_eq_some_iff.1 hread.symm
      refine ⟨before, _, after, rfl, ?_, .inr (.inl (by rw [hid]))⟩
      rw [accountsAfter, after_sharedSteps_snoc]
      exact hthere

/-- From a store without refresh tokens, however requests interleave, nobody gets a session without a
    password that was verified or an identity that a provider vouches for. -/
theorem sessions_vouched (state : AuthState) (requests : Nat → SessionRequest) (s : AccountWorld)
    (tr : AccountHistory) (hnone : s.refreshTokens.rows = [])
    (h : SessionsInterleaved state requests s tr) : Vouched state requests s tr := by
  refine ⟨?_, ?_, fun token hmem => issued_of_stored hnone h hmem⟩
  · rintro before i step after userId rfl hissued
    obtain ⟨user, hwarrant, rfl⟩ := (warranted_of_history h).of_issued hissued
    exact authenticated_of_warrant hnone h.of_append hwarrant
  · rintro before i claims issued after rfl
    obtain ⟨user, hwarrant, hclaims⟩ := warranted_of_history h
    exact ⟨user, hasRead_of_warrant h.of_append hwarrant, hclaims⟩

end History

/-! ## The end of a session -/

/-- The statement deletes the row of the token: in a rotation, a logout, with all tokens of its user, or with
    the user itself. -/
def EndsSession (stored : RefreshToken) : Step AccountStore → Prop
  | ⟨.deleteRefreshToken id, .ok ()⟩ => id = stored.id
  | ⟨.deleteRefreshTokenByHash hash, .ok ()⟩ => hash = stored.tokenHash
  | ⟨.deleteRefreshTokensOf userId, .ok _⟩ => userId = stored.userId
  | ⟨.deleteUser id, .ok ()⟩ => id = stored.userId
  | _ => False

/-- No row has the hash any more, and every refresh that has begun after `before` and presents a token with
    the hash is refused. -/
structure SessionOver (state : AuthState) (requests : Nat → SessionRequest) (s : AccountWorld)
    (before after : AccountHistory) (hash : String) : Prop where
  gone : ∀ token ∈ (accountsAfter state s (before ++ after)).refreshTokens, token.tokenHash ≠ hash
  refused : ∀ j presented token out, requests j = .account (.refresh presented) →
    presented.token = some token → state.hashToken token = hash → ownSteps j before = [] →
    Returns anyAnswer (SessionRequest.serve state) requests (before ++ after) j out →
    out = .error .unauthorized

section Stored

variable {state : AuthState} {env : Environment AccountStore} {l : AccountLocal} {α : Type}

/-- The hash an operation stores. -/
def AccountOp.storedHash : AccountOp → Option String
  | .createRefreshToken _ hash _ => some hash
  | .createResetToken _ hash _ => some hash
  | _ => none

theorem StoresHash.op {step : Step AccountStore} {hash : String} (h : StoresHash step hash) :
    step.op.storedHash = some hash := by
  rcases h with ⟨userId, expiresAt, token, rfl⟩ | ⟨userId, expiresAt, token, rfl⟩ <;> rfl

/-- An operation that stores no hash. -/
theorem keeps_unstored {o : AccountOp} {f : o.Answer → AccountApp α} (ho : o.storedHash = none)
    (hf : ∀ answer l, hashLocal.Keeps env l (f answer)) : hashLocal.Keeps env l (askAccounts o >>= f) := by
  refine .perform fun answer => ⟨fun hash hstores => ?_, hf answer _⟩
  have hop : o.storedHash = some hash := hstores.op
  rw [ho] at hop
  cases hop

theorem issueTokenPair_drawn {user : User} : hashLocal.Keeps env l (issueTokenPair state user) := by
  refine keeps_unstored rfl fun issued l => .ofExcept_bind fun accessToken => .perform fun generated => ⟨?_, ?_⟩
  · exact fun hash hstores => (by cases hstores.op)
  · refine .perform fun now => ⟨fun hash hstores => (by cases hstores.op), .perform fun created => ⟨?_, ?_⟩⟩
    · exact fun hash hstores => hstores.op
    · exact .ofExcept_bind fun _ => .ofExcept_bind fun access => .ofExcept_bind fun refresh => .pure

/-- Every request stores drawn hashes only. -/
theorem SessionRequest.storeDrawn : StoreDrawn (SessionRequest.serve state) := by
  intro r tr out hrun
  have hkeeps : hashLocal.Keeps anyAnswer AccountLocal.start (r.serve state) := by
    cases r with
    | account req =>
        have hown : hashLocal.Keeps anyAnswer AccountLocal.start (req.serve state) := fun tr out hrun =>
          ⟨AccountRequest.storeDrawn req tr out hrun, by cases out <;> trivial⟩
        exact .bind hown fun _ _ => .pure
    | me claims =>
        exact .bind (keeps_unstored rfl fun _ _ => .ofExcept_bind fun _ => .pure) fun _ _ => .pure
    | revokeAllSessions claims =>
        refine .bind (keeps_unstored rfl fun deleted l => ?_) fun _ _ => .pure
        cases deleted with
        | error e => exact .throw
        | ok n => exact .pure
    | oidcCallback providers providerId params =>
        refine .bind (.ofExcept_bind fun client => .ofExcept_bind fun _ => .ofExcept_bind fun identity => ?_)
          fun _ _ => .pure
        refine keeps_unstored rfl fun fetched l => ?_
        cases fetched with
        | ok user => exact issueTokenPair_drawn
        | error e => exact keeps_unstored rfl fun created l => .ofExcept_bind fun user => issueTokenPair_drawn
  exact (hkeeps tr out hrun).1

end Stored

section Ended

variable {state : AuthState} {requests : Nat → SessionRequest} {s : AccountWorld}
  {first second before after : AccountHistory} {stored : RefreshToken}

theorem EndsSession.deletes {step : Step AccountStore} (h : EndsSession stored step) :
    stored ∉ (s.next state step).refreshTokens := by
  intro hmem
  obtain ⟨o, answer⟩ := step
  cases o
  case deleteRefreshToken | deleteRefreshTokenByHash | deleteRefreshTokensOf | deleteUser =>
    cases answer with
    | error e => exact h
    | ok done =>
        cases h
        simpa [AccountWorld.next] using (Table.mem_delete.1 hmem).2
  all_goals exact h

/-- While a token is stored, and ever after, its hash has no other row. -/
theorem only_row_of_hash (hhashes : TokenHashes s) (h : SessionsInterleaved state requests s (first ++ second))
    (hstored : stored ∈ (accountsAfter state s first).refreshTokens) :
    ∀ token ∈ (accountsAfter state s (first ++ second)).refreshTokens,
      token.tokenHash = stored.tokenHash → token = stored := by
  have hheld := hashesHeld_of_interleaved SessionRequest.storeDrawn hhashes h.of_append
  exact refreshTokens_of_spent_interleaved SessionRequest.storeDrawn h (hheld.spent (.inl ⟨stored, hstored, rfl⟩))
    fun token hmem hhash => hheld.refreshApart token hmem stored hstored hhash

/-- A hash that was stored and is gone does not come back. -/
theorem gone_for_good (hhashes : TokenHashes s)
    (h : SessionsInterleaved state requests s (first ++ second ++ after))
    (hstored : stored ∈ (accountsAfter state s first).refreshTokens)
    (hgone : stored ∉ (accountsAfter state s (first ++ second)).refreshTokens) :
    ∀ token ∈ (accountsAfter state s (first ++ second ++ after)).refreshTokens,
      token.tokenHash ≠ stored.tokenHash := by
  have hheld := hashesHeld_of_interleaved SessionRequest.storeDrawn hhashes h.of_append.of_append
  have hspent := hashSpent_of_interleaved SessionRequest.storeDrawn h.of_append (hheld.spent (.inl ⟨stored, hstored, rfl⟩))
  refine refreshTokens_of_spent_interleaved SessionRequest.storeDrawn h hspent fun token hmem hhash => ?_
  rw [only_row_of_hash hhashes h.of_append hstored token hmem hhash] at hmem
  exact absurd hmem hgone

/-- A refresh that finds no row for its token is refused. -/
theorem refused_of_gone {hash : String}
    (hgone : ∀ between later, after = between ++ later →
      ∀ token ∈ (accountsAfter state s (before ++ between)).refreshTokens, token.tokenHash ≠ hash)
    (h : SessionsInterleaved state requests s (before ++ after)) {j : Nat} {presented : PresentedToken}
    {token : String} {out : Except ApiError SessionResponse}
    (hrequest : requests j = .account (.refresh presented))
    (htoken : presented.token = some token) (hhash : state.hashToken token = hash)
    (hnew : ownSteps j before = [])
    (hreturns : Returns anyAnswer (SessionRequest.serve state) requests (before ++ after) j out) :
    out = .error .unauthorized := by
  have hrun : (Program.Runs anyAnswer (do
      let response ← (do pure (.tokens (← refresh state presented)) : AccountApp AccountResponse)
      pure (.account response) : AccountApp SessionResponse) (ownSteps j after) out) := by
    have hrun := hreturns
    rw [Returns, hrequest, ownSteps_append, hnew, List.nil_append] at hrun
    exact hrun
  unfold refresh at hrun
  rw [htoken, Program.bind_assoc, Program.bind_assoc] at hrun
  obtain ⟨fetched, rest, hown, -, hrun⟩ := Program.runs_perform_bind_iff.1 hrun
  cases fetched with
  | error e => exact (Program.runs_throw_iff.1 hrun).2
  | ok stored =>
      obtain ⟨between, later, rfl, -, -⟩ := exists_split_of_head hown
      rw [← List.append_assoc] at h
      have hread := h.accepts
      exact absurd (hread.2.trans hhash) (hgone between _ rfl stored hread.1)

/-- However the requests interleave, a session that has been ended stays ended. -/
theorem ended_session_stays_ended (state : AuthState) (requests : Nat → SessionRequest) (s : AccountWorld)
    (first second : AccountHistory) (i : Nat) (step : Step AccountStore) (after : AccountHistory)
    (stored : RefreshToken) (hhashes : TokenHashes s)
    (h : SessionsInterleaved state requests s ((first ++ second ++ [(i, step)]) ++ after))
    (hstored : stored ∈ (accountsAfter state s first).refreshTokens) (hends : EndsSession stored step) :
    SessionOver state requests s (first ++ second ++ [(i, step)]) after stored.tokenHash := by
  have hdeleted : stored ∉ (accountsAfter state s (first ++ (second ++ [(i, step)]))).refreshTokens := by
    rw [← List.append_assoc, accountsAfter, after_sharedSteps_snoc]
    exact hends.deletes
  have hgone : ∀ between later, after = between ++ later →
      ∀ token ∈ (accountsAfter state s ((first ++ second ++ [(i, step)]) ++ between)).refreshTokens,
        token.tokenHash ≠ stored.tokenHash := by
    rintro between later rfl
    rw [← List.append_assoc, List.append_assoc first] at h
    rw [List.append_assoc first]
    exact gone_for_good hhashes h.of_append hstored hdeleted
  refine ⟨hgone after [] (List.append_nil _).symm, ?_⟩
  intro j presented token out hrequest htoken hhash hnew hreturns
  exact refused_of_gone hgone h hrequest htoken hhash hnew hreturns

end Ended

/-! ## A session from login to logout -/

/-- The token that the login stores, and the one that replaces it. -/
def sampleIssued (id : Uuid) (plaintext : String) : RefreshToken :=
  ⟨id, 3, "sha256:" ++ plaintext, 2 + 7 * microsecondsPerDay, 2⟩

/-- An identity provider that knows one code. -/
def sampleProvider : OidcClient :=
  ⟨"corporate", true, fun code _ nonce =>
    if code = "code" ∧ nonce = "nonce" then some ⟨"ben", "subject", some "Ben"⟩ else none⟩

/-- A login, a refresh, a logout, a refresh with the token of the logout, a first sign-in with a provider, and
    requests without a token. -/
def wholeSession : Nat → SessionRequest
  | 0 => .account (.login ⟨none, none, "ann", "old"⟩)
  | 1 => .account (.refresh ⟨none, some "first"⟩)
  | 2 => .account (.logout ⟨none, some "second"⟩)
  | 3 => .account (.refresh ⟨none, some "second"⟩)
  | 4 => .oidcCallback [sampleProvider] "corporate" ⟨"code", "state"⟩
  | _ => .account (.refresh ⟨none, none⟩)

/-- The statements of a login by password. -/
def sampleLogin : List (Step AccountStore) :=
  ⟨.getUserByEmail "ann", .ok (sampleUser 3 "ann" "user")⟩ :: issueSteps 7 "first"

/-- The statements of the refresh that follows it. -/
def sampleRefresh : List (Step AccountStore) :=
  ⟨.getRefreshToken "sha256:first", .ok (sampleIssued 7 "first")⟩ :: ⟨.now, (3 : Int)⟩
    :: ⟨.getUserById 3, .ok (sampleUser 3 "ann" "user")⟩ :: ⟨.deleteRefreshToken 7, .ok ()⟩
    :: issueSteps 8 "second"

/-- The user that the sign-in creates. -/
def sampleNewcomer : User := ⟨⟨9, none, "ben", some "Ben", "user", none, none, 4⟩, none, none, none, false⟩

/-- The statements of a sign-in of someone unknown. -/
def sampleSignIn : List (Step AccountStore) :=
  [⟨.getUserByEmail "ben", .error .notFound⟩, ⟨.createUser "ben" (some "Ben") .user none, .ok sampleNewcomer⟩,
    ⟨.issueAccessToken ⟨9, Uuid.nil, "user"⟩, .ok "jwt"⟩, ⟨.generateRefreshToken, ⟨"third", "sha256:third"⟩⟩,
    ⟨.now, (4 : Int)⟩, ⟨.createRefreshToken 9 "sha256:third" (4 + 7 * microsecondsPerDay),
      .ok ⟨9, 9, "sha256:third", 4 + 7 * microsecondsPerDay, 4⟩⟩]

/-- A login and its refresh. -/
def openedSession : AccountHistory := sampleLogin.map (0, ·) ++ sampleRefresh.map (1, ·)

/-- The refreshed session is logged out, and someone else signs in. -/
def closedSession : AccountHistory :=
  (openedSession ++ [] ++ [(2, ⟨.deleteRefreshTokenByHash "sha256:second", .ok ()⟩)])
    ++ (3, ⟨.getRefreshToken "sha256:second", .error .notFound⟩) :: sampleSignIn.map (4, ·)

theorem closedSession_interleaved :
    SessionsInterleaved sampleAuthState wholeSession sampleAccounts closedSession := by
  refine ⟨⟨⟨List.mem_cons_of_mem _ List.mem_cons_self, rfl⟩, trivial, ⟨rfl, by decide⟩, trivial,
    ⟨rfl, by decide, rfl⟩, ⟨List.mem_cons_self, rfl⟩, trivial, rfl, trivial, trivial, ⟨rfl, by decide⟩,
    trivial, ⟨rfl, by decide, rfl⟩, trivial, ?_, ?_, ⟨rfl, ?_, rfl⟩, trivial, ⟨rfl, by decide⟩, trivial,
    ⟨rfl, ?_, rfl⟩, trivial⟩, fun i => ?_⟩
  · show ∀ token ∈ _, _
    decide
  · show ∀ user ∈ _, _
    decide
  · decide
  · decide
  · rcases i with _ | _ | _ | _ | _ | i
    · exact ⟨[], _, .op trivial (.op trivial (.op trivial (.op trivial (.op trivial (.pure _)))))⟩
    · exact ⟨[], _, .op trivial (.op trivial (.op trivial (.op trivial (.op trivial (.op trivial (.op trivial
        (.op trivial (.pure _))))))))⟩
    · exact ⟨[], _, .op trivial (.pure _)⟩
    · exact ⟨[], _, .op trivial (.throw _)⟩
    · exact ⟨[], _, .op trivial (.op trivial (.op trivial (.op trivial (.op trivial (.op trivial (.pure _))))))⟩
    · exact ⟨[], _, .throw _⟩

theorem sessions_vouched_sample :
    SessionsInterleaved sampleAuthState wholeSession sampleAccounts closedSession
      ∧ Vouched sampleAuthState wholeSession sampleAccounts closedSession :=
  ⟨closedSession_interleaved, sessions_vouched _ _ _ _ rfl closedSession_interleaved⟩

theorem sampleAccounts_hashes : TokenHashes sampleAccounts := by
  refine ⟨?_, fun token hmem _ _ _ => (by cases hmem), fun token hmem _ _ _ => (by cases hmem)⟩
  rintro hash (⟨token, hmem, -⟩ | ⟨token, hmem, -⟩) <;> cases hmem

theorem ended_session_stays_ended_logout :
    sampleIssued 8 "second" ∈ (accountsAfter sampleAuthState sampleAccounts openedSession).refreshTokens
      ∧ SessionOver sampleAuthState wholeSession sampleAccounts
        (openedSession ++ [] ++ [(2, ⟨.deleteRefreshTokenByHash "sha256:second", .ok ()⟩)])
        ((3, ⟨.getRefreshToken "sha256:second", .error .notFound⟩) :: sampleSignIn.map (4, ·))
        "sha256:second" := by
  have hstored : sampleIssued 8 "second"
      ∈ (accountsAfter sampleAuthState sampleAccounts openedSession).refreshTokens := List.mem_cons_self
  exact ⟨hstored, ended_session_stays_ended _ _ _ openedSession [] 2 _ _ _ sampleAccounts_hashes
    closedSession_interleaved hstored rfl⟩

end Godwit
