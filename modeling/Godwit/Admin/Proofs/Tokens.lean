import Godwit.Lib.Interleaving
import Godwit.Admin.Proofs.Users

set_option autoImplicit false

/-! # Tokens under concurrent requests

Refresh tokens and reset tokens are stored by their hashes. A request draws a token, stores its hash once
and forgets it, so a hash that has been stored never comes back once it is deleted: this is `HashesHeld`,
an invariant of every history. The results about sessions and resets build on it. -/

namespace Godwit

/-! ## What a request does on its own -/

/-- A drawn hash that is not stored yet, the token and the user that the request has read last, and the
    password hash that it has set. -/
structure AccountLocal where
  generated : Option String
  token : Option RefreshToken
  user : Option User
  changed : Option (Uuid × String)

/-- A request before its first step. -/
def AccountLocal.start : AccountLocal := ⟨none, none, none, none⟩

/-- What a request knows after a step of its own. -/
def AccountLocal.next (l : AccountLocal) : Step AccountStore → AccountLocal
  | ⟨.generateRefreshToken, generated⟩ => { l with generated := some generated.hash }
  | ⟨.createRefreshToken _ _ _, _⟩ => { l with generated := none }
  | ⟨.createResetToken _ _ _, _⟩ => { l with generated := none }
  | ⟨.getRefreshToken _, .ok token⟩ => { l with token := some token, user := none }
  | ⟨.getUserByEmail _, .ok user⟩ => { l with user := some user }
  | ⟨.getUserById _, .ok user⟩ => { l with user := some user }
  | ⟨.updatePassword userId hash _, .ok _⟩ => { l with changed := some (userId, hash) }
  | _ => l

/-- Only a drawn hash is stored, refresh tokens are for the user just read, after a token its owner is
    read, and a request that has changed a password neither changes one again nor stores a refresh token
    or creates a user. -/
def AccountLocal.accepts (l : AccountLocal) : Step AccountStore → Prop
  | ⟨.createRefreshToken userId hash _, _⟩ =>
    l.generated = some hash ∧ (∃ user, l.user = some user ∧ user.id = userId) ∧ l.changed = none
  | ⟨.createResetToken _ hash _, _⟩ => l.generated = some hash
  | ⟨.getUserById id, _⟩ => ∀ token, l.token = some token → token.userId = id
  | ⟨.updatePassword _ _ _, _⟩ => l.changed = none
  | ⟨.createUser _ _ _ _, _⟩ => l.changed = none
  | _ => True

/-- The steps of one request, in which the answers agree with what it knows. -/
abbrev accountLocal : Monitor AccountStore where
  State := AccountLocal
  next := AccountLocal.next
  accepts := AccountLocal.accepts

section Local

variable {state : AuthState} {env : Environment AccountStore} {l : AccountLocal} {α β : Type}

theorem keeps_issueTokenPair {user : User} (huser : l.user = some user) (hchanged : l.changed = none) :
    accountLocal.Keeps env l (issueTokenPair state user) := by
  refine .perform fun _ => ⟨trivial, .ofExcept_bind fun accessToken => ?_⟩
  refine .perform fun generated => ⟨trivial, .perform fun now => ⟨trivial, ?_⟩⟩
  refine .perform fun created => ⟨⟨rfl, ⟨user, huser, rfl⟩, hchanged⟩, .ofExcept_bind fun _ => ?_⟩
  exact .ofExcept_bind fun access => .ofExcept_bind fun refresh => .pure

/-- Reading the clock changes nothing. -/
theorem keeps_passwordExpired {user : User} {f : Bool → AccountApp β}
    (hf : ∀ expired, accountLocal.Keeps env l (f expired)) :
    accountLocal.Keeps env l (passwordExpired user >>= f) := by
  unfold passwordExpired
  split
  · exact hf _
  · exact .perform fun _ => ⟨trivial, hf _⟩

theorem keeps_login (hchanged : l.changed = none) (req : LoginRequest) :
    accountLocal.Keeps env l (login state req) := by
  have hrefuse : ∀ ip l, accountLocal.Keeps env l (refuseLogin ip) := by
    intro ip l
    refine .perform fun reply => ⟨trivial, ?_⟩
    split <;> exact .throw
  refine .perform fun fetched => ⟨trivial, ?_⟩
  cases fetched with
  | error e => exact hrefuse _ _
  | ok user =>
      dsimp only
      split
      · exact .throw
      · split
        · refine .bind (keeps_issueTokenPair rfl hchanged) fun pair s' => ?_
          unfold mustChange
          split
          · exact .pure
          · exact keeps_passwordExpired fun _ => .pure
        · exact hrefuse _ _

theorem keeps_refresh (hchanged : l.changed = none) (presented : PresentedToken) :
    accountLocal.Keeps env l (refresh state presented) := by
  unfold refresh
  split
  · exact .throw
  · refine .perform fun fetched => ⟨trivial, ?_⟩
    cases fetched with
    | error e => exact .throw
    | ok stored =>
        refine .perform fun now => ⟨trivial, ?_⟩
        split
        · exact .perform fun _ => ⟨trivial, .throw⟩
        · refine .perform fun fetched => ⟨?_, ?_⟩
          · intro token htoken
            cases htoken
            rfl
          · cases fetched with
            | error e => exact .throw
            | ok user => exact .perform fun _ => ⟨trivial, .ofExcept_bind fun _ =>
                keeps_issueTokenPair rfl hchanged⟩

theorem keeps_doPasswordChange (hchanged : l.changed = none) (userId : Uuid) (newPassword : String) :
    accountLocal.Keeps env l (doPasswordChange state userId newPassword) := by
  refine .perform fun _ => ⟨trivial, .ofExcept_bind fun _ => .ofExcept_bind fun _ => ?_⟩
  refine .perform fun hash => ⟨trivial, ?_⟩
  have hupdate : ∀ expiresAt, accountLocal.Keeps env l (do
      let _ ← orCoreError (← askAccounts (.updatePassword userId hash expiresAt))
      orCoreError (← askAccounts (.pushPassword userId hash))
      orCoreError (← askAccounts (.purgePasswords userId state.maxReuse))
      let _ ← orCoreError (← askAccounts (.deleteRefreshTokensOf userId))) := by
    intro expiresAt
    refine .perform fun _ => ⟨hchanged, .ofExcept_bind fun _ => ?_⟩
    refine .perform fun _ => ⟨trivial, .ofExcept_bind fun _ => ?_⟩
    refine .perform fun _ => ⟨trivial, .ofExcept_bind fun _ => ?_⟩
    exact .perform fun _ => ⟨trivial, .ofExcept_bind fun _ => .pure⟩
  unfold passwordExpiry
  split
  · exact .perform fun _ => ⟨trivial, hupdate _⟩
  · exact hupdate _

/-- Reading a user when no token has been read. -/
theorem keeps_getUserById {id : Uuid} {f : User → AccountApp β} (htoken : l.token = none)
    (hf : ∀ user, accountLocal.Keeps env { l with user := some user } (f user)) :
    accountLocal.Keeps env l (do let user ← orCoreError (← askAccounts (.getUserById id)); f user) := by
  refine .perform fun fetched => ⟨fun token h => ?_, ?_⟩
  · rw [htoken] at h
    cases h
  · cases fetched with
    | error e => exact .throw
    | ok user => exact hf user

theorem keeps_updateUserRow (htoken : l.token = none) (id : Uuid) (name role : Option String)
    (organizationId : Option Uuid) : accountLocal.Keeps env l (updateUserRow id name role organizationId) := by
  refine keeps_getUserById htoken fun current => .perform fun updated => ⟨trivial, ?_⟩
  cases updated with
  | error e => exact .throw
  | ok row => exact .pure

/-- Every request keeps to the local protocol. -/
theorem AccountRequest.keepsProtocol (r : AccountRequest) :
    accountLocal.Keeps env AccountLocal.start (r.serve state) := by
  cases r with
  | login req => exact .bind (keeps_login rfl req) fun _ _ => .pure
  | refresh presented => exact .bind (keeps_refresh rfl presented) fun _ _ => .pure
  | logout presented =>
      refine .bind ?_ fun _ _ => .pure
      unfold Godwit.logout
      split
      · exact .throw
      · refine .perform fun executed => ⟨trivial, ?_⟩
        cases executed with
        | error e => exact .throw
        | ok done => exact .pure
  | changePassword claims currentPassword newPassword =>
      refine .bind (keeps_getUserById rfl fun user => ?_) fun _ _ => .pure
      split
      · exact .throw
      · split
        · exact keeps_doPasswordChange rfl _ _
        · exact .throw
  | changeRequired claims newPassword =>
      refine .bind (keeps_getUserById rfl fun user => ?_) fun _ _ => .pure
      refine keeps_passwordExpired fun expired => ?_
      split
      · exact .throw
      · exact keeps_doPasswordChange rfl _ _
  | adminResetPassword claims userId newPassword =>
      refine .bind (.ofExcept_bind fun role => .ofExcept_bind fun _ => ?_) fun _ _ => .pure
      refine keeps_getUserById rfl fun target => .ofExcept_bind fun _ => .ofExcept_bind fun _ => ?_
      refine .bind (keeps_doPasswordChange rfl _ _) fun _ _ => .perform fun _ => ⟨trivial, ?_⟩
      exact .ofExcept_bind fun _ => .pure
  | forgotPassword email =>
      refine .bind (.perform fun fetched => ⟨trivial, ?_⟩) fun _ _ => .pure
      cases fetched with
      | error e => exact .pure
      | ok user =>
          refine .perform fun generated => ⟨trivial, .perform fun now => ⟨trivial, ?_⟩⟩
          refine .perform fun created => ⟨rfl, ?_⟩
          split
          · exact .perform (f := .pure) fun _ => ⟨trivial, .pure⟩
          · exact .pure
  | resetPassword token newPassword =>
      refine .bind (.perform fun fetched => ⟨trivial, ?_⟩) fun _ _ => .pure
      cases fetched with
      | error e => exact .throw
      | ok stored =>
          dsimp only
          split
          · exact .throw
          · refine .perform fun now => ⟨trivial, ?_⟩
            split
            · exact .throw
            · refine .bind (keeps_doPasswordChange rfl _ _) fun _ _ => .perform fun executed => ⟨trivial, ?_⟩
              cases executed with
              | error e => exact .throw
              | ok done => exact .pure
  | createUser claims req =>
      refine .bind (.ofExcept_bind fun role => .ofExcept_bind fun _ => .ofExcept_bind fun _ => ?_)
        fun _ _ => .pure
      exact .perform fun created => ⟨rfl, .ofExcept_bind fun _ => .pure⟩
  | updateUser claims id req =>
      refine .bind (.ofExcept_bind fun role => .ofExcept_bind fun _ => ?_) fun _ _ => .pure
      refine keeps_getUserById rfl fun target => .ofExcept_bind fun _ => .ofExcept_bind fun _ =>
        .ofExcept_bind fun _ => .ofExcept_bind fun _ => ?_
      refine .bind (keeps_updateUserRow rfl id _ _ _) fun updated l => ?_
      split
      · exact .perform fun _ => ⟨trivial, .ofExcept_bind fun _ => .pure⟩
      · exact .pure
  | deleteUser claims id =>
      refine .bind (.ofExcept_bind fun role => .ofExcept_bind fun _ => ?_) fun _ _ => .pure
      refine keeps_getUserById rfl fun target => .ofExcept_bind fun _ => .ofExcept_bind fun _ => ?_
      refine .perform fun executed => ⟨trivial, ?_⟩
      cases executed with
      | error e => exact .throw
      | ok done => exact .pure

theorem AccountRequest.locally_safe (r : AccountRequest) (tr : List (Step AccountStore))
    (out : Except ApiError AccountResponse) (hrun : (r.serve state).Runs env tr out) :
    accountLocal.Safe AccountLocal.start tr :=
  (r.keepsProtocol tr out hrun).1

end Local

/-! ## What a step does to the tokens -/

section Step

variable {state : AuthState} {s : AccountWorld} {l : Nat → AccountLocal} {i : Nat}
  {step : Step AccountStore}

/-- The hash that a statement has stored, in either table. -/
def StoresHash (step : Step AccountStore) (hash : String) : Prop :=
  (∃ userId expiresAt token, step = ⟨.createRefreshToken userId hash expiresAt, .ok token⟩)
    ∨ ∃ userId expiresAt token, step = ⟨.createResetToken userId hash expiresAt, .ok token⟩

/-- A refresh token after a step was there before, or this very step has created it. -/
theorem refreshToken_of_next (haccepts : s.answers state step.op step.answer) {token : RefreshToken}
    (h : token ∈ (s.next state step).refreshTokens) :
    token ∈ s.refreshTokens
      ∨ step = ⟨.createRefreshToken token.userId token.tokenHash token.expiresAt, .ok token⟩ := by
  obtain ⟨o, answer⟩ := step
  cases o
  case createRefreshToken userId hash expiresAt =>
    cases answer with
    | error e => exact .inl h
    | ok created =>
        obtain ⟨hfresh, -, hcreated⟩ := haccepts
        rcases (Table.mem_insert_of_fresh hfresh).1 h with hold | rfl
        · exact .inl hold
        · exact .inr (by rw [hcreated])
  case deleteUser | deleteRefreshToken | deleteRefreshTokenByHash | deleteRefreshTokensOf =>
    cases answer with
    | error e => exact .inl h
    | ok done => exact .inl (Table.mem_delete.1 h).1
  all_goals first | exact .inl h | cases answer <;> exact .inl h

/-- A reset token after a step was there before, with the same key and hash and used if it was used, or
    this very step has created it. -/
theorem resetToken_of_next (haccepts : s.answers state step.op step.answer) {token : PasswordResetToken}
    (h : token ∈ (s.next state step).resetTokens) :
    (∃ old ∈ s.resetTokens, old.id = token.id ∧ old.tokenHash = token.tokenHash
        ∧ (old.used = true → token.used = true))
      ∨ step = ⟨.createResetToken token.userId token.tokenHash token.expiresAt, .ok token⟩ := by
  have hsame : ∀ {token}, token ∈ s.resetTokens → ∃ old ∈ s.resetTokens, old.id = token.id
      ∧ old.tokenHash = token.tokenHash ∧ (old.used = true → token.used = true) := by
    intro token hmem
    exact ⟨token, hmem, rfl, rfl, fun hused => hused⟩
  obtain ⟨o, answer⟩ := step
  cases o
  case createResetToken userId hash expiresAt =>
    cases answer with
    | error e => exact .inl (hsame h)
    | ok created =>
        obtain ⟨hfresh, -, hcreated⟩ := haccepts
        rcases (Table.mem_insert_of_fresh hfresh).1 h with hold | rfl
        · exact .inl (hsame hold)
        · exact .inr (by rw [hcreated])
  case deleteUser id =>
    cases answer with
    | error e => exact .inl (hsame h)
    | ok done => exact .inl (hsame (Table.mem_delete.1 h).1)
  case markResetTokenUsed id =>
    cases answer with
    | error e => exact .inl (hsame h)
    | ok done =>
        obtain ⟨old, hold, rfl⟩ := (Table.mem_map (f := PasswordResetToken.markUsed id) fun _ => rfl).1 h
        exact .inl ⟨old, hold, rfl, rfl, fun hused => by simp [PasswordResetToken.markUsed, hused]⟩
  all_goals first | exact .inl (hsame h) | cases answer <;> exact .inl (hsame h)

/-- Steps only add to the hashes seen. -/
theorem seen_of_next {hash : String} (h : hash ∈ s.seen) : hash ∈ (s.next state step).seen := by
  obtain ⟨o, answer⟩ := step
  cases o
  case generateRefreshToken => exact List.mem_cons_of_mem _ h
  all_goals first | exact h | cases answer <;> exact h

/-- A request that holds a drawn hash after a step has just drawn it, or held it and stored nothing. -/
theorem drawn_of_next {l : AccountLocal} {hash : String} (h : (l.next step).generated = some hash) :
    (∃ plaintext, step = ⟨.generateRefreshToken, ⟨plaintext, hash⟩⟩)
      ∨ (l.generated = some hash ∧ ∀ hash', ¬ StoresHash step hash') := by
  obtain ⟨o, answer⟩ := step
  have hnot : ∀ {o : AccountOp} {answer : o.Answer}, (∀ userId hash expiresAt,
      o ≠ .createRefreshToken userId hash expiresAt ∧ o ≠ .createResetToken userId hash expiresAt) →
      ∀ hash', ¬ StoresHash ⟨o, answer⟩ hash' := by
    rintro o answer hop hash' (⟨userId, expiresAt, token, heq⟩ | ⟨userId, expiresAt, token, heq⟩)
    · cases heq
      exact (hop _ _ _).1 rfl
    · cases heq
      exact (hop _ _ _).2 rfl
  cases o with
  | generateRefreshToken =>
      obtain ⟨plaintext, hash'⟩ := answer
      cases h
      exact .inl ⟨plaintext, rfl⟩
  | createRefreshToken userId hash' expiresAt => cases h
  | createResetToken userId hash' expiresAt => cases h
  | getRefreshToken hash' => cases answer <;> exact .inr ⟨h, hnot fun _ _ _ => by simp⟩
  | getUserByEmail email => cases answer <;> exact .inr ⟨h, hnot fun _ _ _ => by simp⟩
  | getUserById id => cases answer <;> exact .inr ⟨h, hnot fun _ _ _ => by simp⟩
  | updatePassword userId hash' expiresAt => cases answer <;> exact .inr ⟨h, hnot fun _ _ _ => by simp⟩
  | _ => exact .inr ⟨h, hnot fun _ _ _ => by simp⟩

/-- A stored hash is one that the request had drawn. -/
theorem drawn_of_stored {l : AccountLocal} {hash : String} (hstores : StoresHash step hash)
    (h : l.accepts step) : l.generated = some hash := by
  rcases hstores with ⟨userId, expiresAt, token, rfl⟩ | ⟨userId, expiresAt, token, rfl⟩
  · exact h.1
  · exact h

end Step

/-- The part of the local protocol that is about hashes. -/
abbrev hashLocal : Monitor AccountStore where
  State := AccountLocal
  next := AccountLocal.next
  accepts l step := ∀ hash, StoresHash step hash → l.generated = some hash

theorem hashes_safe_of_safe {l : AccountLocal} {tr : List (Step AccountStore)} (h : accountLocal.Safe l tr) :
    hashLocal.Safe l tr := by
  induction tr generalizing l with
  | nil => trivial
  | cons step rest ih => exact ⟨fun hash hstores => drawn_of_stored hstores h.1, ih h.2⟩

/-! ## Hashes -/

/-- A token with this hash is stored. -/
def HashStored (s : AccountWorld) (hash : String) : Prop :=
  (∃ token ∈ s.refreshTokens, token.tokenHash = hash) ∨ ∃ token ∈ s.resetTokens, token.tokenHash = hash

/-- The stored hashes have been seen, and no two tokens of a table share one. -/
structure TokenHashes (s : AccountWorld) : Prop where
  storedSeen : ∀ hash, HashStored s hash → hash ∈ s.seen
  refreshApart : ∀ token ∈ s.refreshTokens, ∀ token' ∈ s.refreshTokens,
    token.tokenHash = token'.tokenHash → token = token'
  resetApart : ∀ token ∈ s.resetTokens, ∀ token' ∈ s.resetTokens,
    token.tokenHash = token'.tokenHash → token = token'

/-- A hash drawn by a request belongs to that request alone until it is stored. -/
structure HashesHeld (s : AccountWorld) (l : Nat → AccountLocal) : Prop extends TokenHashes s where
  held : ∀ i hash, (l i).generated = some hash → hash ∈ s.seen
  unstored : ∀ i hash, (l i).generated = some hash → ¬ HashStored s hash
  own : ∀ i j hash, (l i).generated = some hash → (l j).generated = some hash → i = j

/-- The hash cannot be stored again: it has been seen and no request holds it. -/
structure HashSpent (hash : String) (s : AccountWorld) (l : Nat → AccountLocal) : Prop where
  seen : hash ∈ s.seen
  unheld : ∀ i, (l i).generated ≠ some hash

section Hashes

variable {state : AuthState} {s : AccountWorld} {l : Nat → AccountLocal} {i : Nat}
  {step : Step AccountStore}

theorem drawn_of_update {j : Nat} {hash : String}
    (h : (Function.update l i ((l i).next step) j).generated = some hash) :
    (j = i ∧ ∃ plaintext, step = ⟨.generateRefreshToken, ⟨plaintext, hash⟩⟩)
      ∨ ((l j).generated = some hash ∧ (j = i → ∀ hash', ¬ StoresHash step hash')) := by
  by_cases hj : j = i
  · subst hj
    rw [Function.update_self] at h
    rcases drawn_of_next h with hnew | ⟨hold, hnone⟩
    · exact .inl ⟨rfl, hnew⟩
    · exact .inr ⟨hold, fun _ => hnone⟩
  · rw [Function.update_of_ne hj] at h
    exact .inr ⟨h, fun heq => absurd heq hj⟩

theorem HashSpent.kept {hash : String} (h : HashSpent hash s l)
    (haccepts : s.answers state step.op step.answer) :
    HashSpent hash (s.next state step) (Function.update l i ((l i).next step)) := by
  refine ⟨seen_of_next h.seen, fun j hj => ?_⟩
  rcases drawn_of_update hj with ⟨-, plaintext, rfl⟩ | ⟨hold, -⟩
  · exact haccepts.2 h.seen
  · exact h.unheld j hold

theorem HashSpent.not_stored {hash : String} (h : HashSpent hash s l)
    (hlocal : hashLocal.accepts (l i) step) : ¬ StoresHash step hash :=
  fun hstores => h.unheld i (hlocal hash hstores)

theorem hashStored_of_next (haccepts : s.answers state step.op step.answer) {hash : String}
    (h : HashStored (s.next state step) hash) : HashStored s hash ∨ StoresHash step hash := by
  rcases h with ⟨token, hmem, rfl⟩ | ⟨token, hmem, rfl⟩
  · rcases refreshToken_of_next haccepts hmem with hold | hstep
    · exact .inl (.inl ⟨token, hold, rfl⟩)
    · exact .inr (.inl ⟨_, _, _, hstep⟩)
  · rcases resetToken_of_next haccepts hmem with ⟨old, hold, -, hhash, -⟩ | hstep
    · exact .inl (.inr ⟨old, hold, hhash⟩)
    · exact .inr (.inr ⟨_, _, _, hstep⟩)

theorem HashesHeld.tokenHashes_next (h : HashesHeld s l) (haccepts : s.answers state step.op step.answer)
    (hlocal : hashLocal.accepts (l i) step) : TokenHashes (s.next state step) := by
  refine ⟨fun hash hstored => ?_, fun token hmem token' hmem' hhash => ?_,
    fun token hmem token' hmem' hhash => ?_⟩
  · rcases hashStored_of_next haccepts hstored with hold | hstores
    · exact seen_of_next (h.storedSeen hash hold)
    · exact seen_of_next (h.held i hash (hlocal hash hstores))
  · rcases refreshToken_of_next haccepts hmem with hold | hstep
    all_goals rcases refreshToken_of_next haccepts hmem' with hold' | hstep'
    · exact h.refreshApart token hold token' hold' hhash
    · have hdrawn := hlocal _ (.inl ⟨_, _, _, hstep'⟩)
      exact absurd (.inl ⟨token, hold, hhash⟩) (h.unstored i _ hdrawn)
    · have hdrawn := hlocal _ (.inl ⟨_, _, _, hstep⟩)
      exact absurd (.inl ⟨token', hold', hhash.symm⟩) (h.unstored i _ hdrawn)
    · rw [hstep] at hstep'
      injection hstep' with hop hanswer
      exact Except.ok.inj hanswer
  · rcases resetToken_of_next haccepts hmem with ⟨old, hold, hid, hsame, -⟩ | hstep
    all_goals rcases resetToken_of_next haccepts hmem' with ⟨old', hold', hid', hsame', -⟩ | hstep'
    · have heq := h.resetApart old hold old' hold' (hsame.trans (hhash.trans hsame'.symm))
      exact Table.eq_of_key hmem hmem' (by rw [← hid, ← hid', heq])
    · have hdrawn := hlocal _ (.inr ⟨_, _, _, hstep'⟩)
      exact absurd (.inr ⟨old, hold, hsame.trans hhash⟩) (h.unstored i _ hdrawn)
    · have hdrawn := hlocal _ (.inr ⟨_, _, _, hstep⟩)
      exact absurd (.inr ⟨old', hold', hsame'.trans hhash.symm⟩) (h.unstored i _ hdrawn)
    · rw [hstep] at hstep'
      injection hstep' with hop hanswer
      exact Except.ok.inj hanswer

/-- Steps keep the hashes apart. -/
theorem HashesHeld.kept (h : HashesHeld s l) (haccepts : s.answers state step.op step.answer)
    (hlocal : hashLocal.accepts (l i) step) :
    HashesHeld (s.next state step) (Function.update l i ((l i).next step)) := by
  have hnew : ∀ {plaintext hash}, step = ⟨.generateRefreshToken, ⟨plaintext, hash⟩⟩ →
      hash ∉ s.seen ∧ hash ∈ (s.next state step).seen ∧ ∀ hash', ¬ StoresHash step hash' := by
    rintro plaintext hash rfl
    refine ⟨haccepts.2, List.mem_cons_self, ?_⟩
    rintro hash' (⟨userId, expiresAt, token, heq⟩ | ⟨userId, expiresAt, token, heq⟩) <;> cases heq
  refine ⟨h.tokenHashes_next haccepts hlocal, fun j hash hj => ?_, fun j hash hj hstored => ?_,
    fun j k hash hj hk => ?_⟩
  · rcases drawn_of_update hj with ⟨-, plaintext, hstep⟩ | ⟨hold, -⟩
    · exact (hnew hstep).2.1
    · exact seen_of_next (h.held j hash hold)
  · rcases hashStored_of_next haccepts hstored with hbefore | hstores
    all_goals rcases drawn_of_update hj with ⟨-, plaintext, hstep⟩ | ⟨hheld, hnone⟩
    · exact (hnew hstep).1 (h.storedSeen hash hbefore)
    · exact h.unstored j hash hheld hbefore
    · exact (hnew hstep).2.2 hash hstores
    · exact hnone (h.own j i hash hheld (hlocal hash hstores)) hash hstores
  · rcases drawn_of_update hj with ⟨rfl, plaintext, hstep⟩ | ⟨hheld, -⟩
    all_goals rcases drawn_of_update hk with ⟨rfl, plaintext', hstep'⟩ | ⟨hheld', -⟩
    · rfl
    · exact absurd (h.held k hash hheld') (hnew hstep).1
    · exact absurd (h.held j hash hheld) (hnew hstep').1
    · exact h.own j k hash hheld hheld'

end Hashes

/-! ## Histories -/

/-- The steps of the requests, in the order in which they were taken. -/
abbrev AccountHistory := List (Nat × Step AccountStore)

/-- The world after a history. -/
abbrev accountsAfter (state : AuthState) (s : AccountWorld) (tr : AccountHistory) : AccountWorld :=
  (accountWorld state).after s (sharedSteps tr)

/-- The requests, interleaved in any order. -/
abbrev AccountsInterleaved (state : AuthState) (requests : Nat → AccountRequest) (s : AccountWorld)
    (tr : AccountHistory) : Prop :=
  Interleaved (accountWorld state) anyAnswer (AccountRequest.serve state) requests s tr

/-- What each request holds after a history. -/
abbrev accountLocals (requests : Nat → AccountRequest) (tr : AccountHistory) : Nat → AccountLocal :=
  Interleaved.locals (L := accountLocal) (fun _ => AccountLocal.start) requests tr

section Hashes

variable {state : AuthState} {ρ α : Type} {serve : ρ → AccountApp α} {requests : Nat → ρ} {s : AccountWorld}
  {tr first second : AccountHistory}

/-- What each request holds after a history, whatever the requests are. -/
abbrev hashLocals (requests : Nat → ρ) (tr : AccountHistory) : Nat → AccountLocal :=
  Interleaved.locals (L := hashLocal) (fun _ => AccountLocal.start) requests tr

/-- Requests that store drawn hashes only. -/
abbrev StoreDrawn (serve : ρ → AccountApp α) : Prop :=
  ∀ r tr out, (serve r).Runs anyAnswer tr out → hashLocal.Safe AccountLocal.start tr

theorem hashesHeld_of_interleaved (hserve : StoreDrawn serve) (hhashes : TokenHashes s)
    (h : Interleaved (accountWorld state) anyAnswer serve requests s tr) :
    HashesHeld (accountsAfter state s tr) (hashLocals requests tr) := by
  have hstart : HashesHeld s fun _ => AccountLocal.start :=
    ⟨hhashes, fun _ _ hi => (by cases hi), fun _ _ hi => (by cases hi), fun _ _ _ hi => (by cases hi)⟩
  exact h.invariant_of_start (L := hashLocal) (J := HashesHeld) (C := fun _ _ _ _ => True) hserve
    (fun _ _ _ _ hheld haccepts hlocal _ => hheld.kept haccepts hlocal) hstart fun _ _ _ _ _ => trivial

theorem hashSpent_of_interleaved {hash : String} (hserve : StoreDrawn serve)
    (h : Interleaved (accountWorld state) anyAnswer serve requests s (first ++ second))
    (hspent : HashSpent hash (accountsAfter state s first) (hashLocals requests first)) :
    HashSpent hash (accountsAfter state s (first ++ second)) (hashLocals requests (first ++ second)) :=
  h.invariant (L := hashLocal) (J := HashSpent hash) (C := fun _ _ _ _ => True) hserve
    (fun _ _ _ _ hkept haccepts _ _ => hkept.kept haccepts) hspent fun _ _ _ _ _ => trivial

theorem refreshTokens_of_spent_interleaved {hash : String} {A : RefreshToken → Prop} (hserve : StoreDrawn serve)
    (h : Interleaved (accountWorld state) anyAnswer serve requests s (first ++ second))
    (hspent : HashSpent hash (accountsAfter state s first) (hashLocals requests first))
    (hA : ∀ token ∈ (accountsAfter state s first).refreshTokens, token.tokenHash = hash → A token) :
    ∀ token ∈ (accountsAfter state s (first ++ second)).refreshTokens, token.tokenHash = hash → A token := by
  let J (s : AccountWorld) (l : Nat → AccountLocal) : Prop :=
    HashSpent hash s l ∧ ∀ token ∈ s.refreshTokens, token.tokenHash = hash → A token
  have hstep : ∀ (s : AccountWorld) (l : Nat → AccountLocal) i step, J s l →
      s.answers state step.op step.answer → hashLocal.accepts (l i) step →
      J (s.next state step) (Function.update l i ((l i).next step)) := by
    rintro s l i step ⟨hspent, hA⟩ haccepts hlocal
    refine ⟨hspent.kept haccepts, fun token hmem hhash => ?_⟩
    rcases refreshToken_of_next haccepts hmem with hold | hstep
    · exact hA token hold hhash
    · exact absurd (.inl ⟨_, _, _, hhash ▸ hstep⟩) (hspent.not_stored hlocal)
  have hfirst : J (accountsAfter state s first) (hashLocals requests first) := ⟨hspent, hA⟩
  have hlast : J (accountsAfter state s (first ++ second)) (hashLocals requests (first ++ second)) :=
    h.invariant (L := hashLocal) (C := fun _ _ _ _ => True) hserve
      (fun _ _ _ _ hJ haccepts hlocal _ => hstep _ _ _ _ hJ haccepts hlocal) hfirst
      fun _ _ _ _ _ => trivial
  exact hlast.2

end Hashes

section History

variable {state : AuthState} {requests : Nat → AccountRequest} {s : AccountWorld}
  {tr first second : AccountHistory}

theorem AccountRequest.storeDrawn : StoreDrawn (AccountRequest.serve state) :=
  fun r tr out hrun => hashes_safe_of_safe (r.locally_safe tr out hrun)

/-- Along every history the hashes stay apart. -/
theorem hashesHeld_of_history (hhashes : TokenHashes s) (h : AccountsInterleaved state requests s tr) :
    HashesHeld (accountsAfter state s tr) (accountLocals requests tr) :=
  hashesHeld_of_interleaved AccountRequest.storeDrawn hhashes h

/-- A spent hash stays spent. -/
theorem hashSpent_of_history {hash : String} (h : AccountsInterleaved state requests s (first ++ second))
    (hspent : HashSpent hash (accountsAfter state s first) (accountLocals requests first)) :
    HashSpent hash (accountsAfter state s (first ++ second)) (accountLocals requests (first ++ second)) :=
  hashSpent_of_interleaved AccountRequest.storeDrawn h hspent

/-- The refresh tokens of a spent hash, if any, satisfy `A` from some point on. -/
theorem refreshTokens_of_spent {hash : String} {A : RefreshToken → Prop}
    (h : AccountsInterleaved state requests s (first ++ second))
    (hspent : HashSpent hash (accountsAfter state s first) (accountLocals requests first))
    (hA : ∀ token ∈ (accountsAfter state s first).refreshTokens, token.tokenHash = hash → A token) :
    ∀ token ∈ (accountsAfter state s (first ++ second)).refreshTokens, token.tokenHash = hash → A token :=
  refreshTokens_of_spent_interleaved AccountRequest.storeDrawn h hspent hA

/-- The reset tokens of a spent hash satisfy what a token keeps when it is marked used. -/
theorem resetTokens_of_spent {hash : String} {A : PasswordResetToken → Prop}
    (hkept : ∀ token token' : PasswordResetToken, token.id = token'.id →
      (token.used = true → token'.used = true) → A token → A token')
    (h : AccountsInterleaved state requests s (first ++ second))
    (hspent : HashSpent hash (accountsAfter state s first) (accountLocals requests first))
    (hA : ∀ token ∈ (accountsAfter state s first).resetTokens, token.tokenHash = hash → A token) :
    ∀ token ∈ (accountsAfter state s (first ++ second)).resetTokens, token.tokenHash = hash → A token := by
  let J (s : AccountWorld) (l : Nat → AccountLocal) : Prop :=
    HashSpent hash s l ∧ ∀ token ∈ s.resetTokens, token.tokenHash = hash → A token
  have hstep : ∀ (s : AccountWorld) (l : Nat → AccountLocal) i step, J s l →
      s.answers state step.op step.answer → hashLocal.accepts (l i) step →
      J (s.next state step) (Function.update l i ((l i).next step)) := by
    rintro s l i step ⟨hspent, hA⟩ haccepts hlocal
    refine ⟨hspent.kept haccepts, fun token hmem hhash => ?_⟩
    rcases resetToken_of_next haccepts hmem with ⟨old, hold, hid, hsame, hused⟩ | hstep
    · exact hkept old token hid hused (hA old hold (hsame.trans hhash))
    · exact absurd (.inr ⟨_, _, _, hhash ▸ hstep⟩) (hspent.not_stored hlocal)
  have hfirst : J (accountsAfter state s first) (accountLocals requests first) := ⟨hspent, hA⟩
  have hlast : J (accountsAfter state s (first ++ second)) (accountLocals requests (first ++ second)) :=
    h.invariant (L := hashLocal) (C := fun _ _ _ _ => True) AccountRequest.storeDrawn
      (fun _ _ _ _ hJ haccepts hlocal _ => hstep _ _ _ _ hJ haccepts hlocal) hfirst
      fun _ _ _ _ _ => trivial
  exact hlast.2

/-- A hash that is stored is spent. -/
theorem HashesHeld.spent {l : Nat → AccountLocal} {hash : String} (h : HashesHeld s l)
    (hstored : HashStored s hash) : HashSpent hash s l :=
  ⟨h.storedSeen hash hstored, fun i hi => h.unstored i hash hi hstored⟩

end History

end Godwit
