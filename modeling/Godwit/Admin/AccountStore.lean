import Godwit.Admin.KeyStore

set_option autoImplicit false

/-! # Accounts and sessions behind the gateway

The tables `users`, `refresh_tokens`, `password_reset_tokens` and `password_history`, the login limiter,
and the statements of their repositories as operations. As in the key store a statement fails with a
database error and changes nothing, or does what its SQL says in one step. Tokens are drawn at random:
the world remembers the hashes it has seen, and a drawn token has a new one. -/

namespace Godwit

/-! ## Rows -/

/-- What a user shows of itself in a response. -/
structure UserRecord where
  id : Uuid
  organizationId : Option Uuid
  email : String
  name : Option String
  role : String
  ssoProvider : Option String
  ssoSubject : Option String
  createdAt : Timestamp
  deriving DecidableEq, Repr

/-- A row of `users`; the fields about the password are never serialised. -/
structure User extends UserRecord where
  passwordHash : Option String
  passwordChangedAt : Option Timestamp
  passwordExpiresAt : Option Timestamp
  mustChangePassword : Bool
  deriving DecidableEq, Repr

/-- A row of `refresh_tokens`: the hash of a token that was issued to a user, and when it expires. -/
structure RefreshToken where
  id : Uuid
  userId : Uuid
  tokenHash : String
  expiresAt : Timestamp
  createdAt : Timestamp
  deriving DecidableEq, Repr

/-- A row of `password_reset_tokens`; of `used_at` only whether it is set is ever read. -/
structure PasswordResetToken where
  id : Uuid
  userId : Uuid
  tokenHash : String
  expiresAt : Timestamp
  createdAt : Timestamp
  used : Bool
  deriving DecidableEq, Repr

/-- The `users` table. -/
abbrev UserTable := Table fun user : User => user.id

/-- The `refresh_tokens` table. -/
abbrev RefreshTokenTable := Table fun token : RefreshToken => token.id

/-- The `password_reset_tokens` table. -/
abbrev PasswordResetTokenTable := Table fun token : PasswordResetToken => token.id

/-! ## The login limiter -/

/-- The buckets of a `LoginLimiter`, one for each client address. -/
abbrev LoginBuckets := String → Option TokenBucket

/-- `LoginLimiter::attempt_allowed`, at a reading of the clock. -/
def attemptAllowed (capacity : Nat) (buckets : LoginBuckets) (now : Instant) (ip : String)
    (debitOnFail : Bool) : Option Nat × LoginBuckets :=
  if capacity = 0 then (none, buckets)
  else
    let bucket := (buckets ip).getD (TokenBucket.new capacity now)
    let (retryAfter, bucket) := bucket.deficitRetryAfter now 1
    let bucket := if retryAfter.isNone && debitOnFail then bucket.debit 1 else bucket
    (retryAfter, Function.update buckets ip (some bucket))

/-- The limiter's verdict and when it was given. -/
structure LimiterReply where
  time : Instant
  retryAfter : Option Nat
  deriving DecidableEq, Repr

/-! ## Operations -/

/-- A token and its hash. -/
structure GeneratedToken where
  plaintext : String
  hash : String
  deriving DecidableEq, Repr

/-- What the account handlers ask of the clock, the token issuers, the mailer, the login limiter and the
    database. -/
inductive AccountOp where
  | now
  /-- `jwt::issue` for these claims. -/
  | issueAccessToken (claims : Claims)
  | generateRefreshToken
  /-- `hash_password`, with a salt of its own. -/
  | hashPassword (password : String)
  | sendResetMail (email appUrl token : String)
  | attemptAllowed (ip : String) (debitOnFail : Bool)
  | getUserByEmail (email : String)
  | getUserById (id : Uuid)
  | createUser (email : String) (name : Option String) (role : Role) (organizationId : Option Uuid)
  | updateUser (id : Uuid) (name : Option String) (role : String) (organizationId : Option Uuid)
  | deleteUser (id : Uuid)
  | updatePassword (userId : Uuid) (hash : String) (expiresAt : Option Timestamp)
  | setMustChange (userId : Uuid) (must : Bool)
  | removeMemberships (userId : Uuid)
  | getRefreshToken (hash : String)
  | createRefreshToken (userId : Uuid) (hash : String) (expiresAt : Timestamp)
  | deleteRefreshToken (id : Uuid)
  | deleteRefreshTokenByHash (hash : String)
  | deleteRefreshTokensOf (userId : Uuid)
  | getLastPasswords (userId : Uuid) (n : Nat)
  | pushPassword (userId : Uuid) (hash : String)
  | purgePasswords (userId : Uuid) (keep : Nat)
  | getResetToken (hash : String)
  | createResetToken (userId : Uuid) (hash : String) (expiresAt : Timestamp)
  | markResetTokenUsed (id : Uuid)
  deriving DecidableEq, Repr

/-- The answer to each of these: a statement of the database may fail. -/
def AccountOp.Answer : AccountOp → Type
  | .now => Timestamp
  | .issueAccessToken _ => Except PasteurError String
  | .generateRefreshToken => GeneratedToken
  | .hashPassword _ => String
  | .sendResetMail _ _ _ => Unit
  | .attemptAllowed _ _ => LimiterReply
  | .getUserByEmail _ => Except PasteurError User
  | .getUserById _ => Except PasteurError User
  | .createUser _ _ _ _ => Except PasteurError User
  | .updateUser _ _ _ _ => Except PasteurError User
  | .deleteUser _ => Except PasteurError Unit
  | .updatePassword _ _ _ => Except PasteurError User
  | .setMustChange _ _ => Except PasteurError User
  | .removeMemberships _ => Except PasteurError Unit
  | .getRefreshToken _ => Except PasteurError RefreshToken
  | .createRefreshToken _ _ _ => Except PasteurError RefreshToken
  | .deleteRefreshToken _ => Except PasteurError Unit
  | .deleteRefreshTokenByHash _ => Except PasteurError Unit
  | .deleteRefreshTokensOf _ => Except PasteurError Nat
  | .getLastPasswords _ _ => Except PasteurError (List String)
  | .pushPassword _ _ => Except PasteurError Unit
  | .purgePasswords _ _ => Except PasteurError Unit
  | .getResetToken _ => Except PasteurError PasswordResetToken
  | .createResetToken _ _ _ => Except PasteurError PasswordResetToken
  | .markResetTokenUsed _ => Except PasteurError Unit

/-- The operations and their answers. -/
abbrev AccountStore : Signature := ⟨AccountOp, AccountOp.Answer⟩

/-! ## Statements -/

/-- The tables, the limiter with the last reading of its clock, and the token hashes seen so far. The
    history of passwords of a user is listed from the newest on. -/
structure AccountWorld where
  users : UserTable
  refreshTokens : RefreshTokenTable
  resetTokens : PasswordResetTokenTable
  history : Uuid → List String
  buckets : LoginBuckets
  clock : Instant
  seen : List String

/-- What the handlers use and do not change: the hash functions, the tables of character classes and
    common passwords, and the configuration. -/
structure AuthState where
  argon2 : Argon2
  /-- `hash_refresh_token`. -/
  hashToken : String → String
  isUppercase : Char → Bool
  isLowercase : Char → Bool
  isAlphanumeric : Char → Bool
  commonPasswords : List String
  minLength : Nat
  requireUpper : Bool
  requireLower : Bool
  requireDigit : Bool
  requireSymbol : Bool
  maxReuse : Nat
  daysToExpire : Nat
  blockCommon : Bool
  accessTokenTtlMinutes : Int
  refreshTokenTtlDays : Int
  cookieSecure : Bool
  trustProxy : Bool
  /-- The capacity of the login limiter. -/
  loginCapacity : Nat
  /-- The address for links in mails, where a mailer is configured. -/
  mailAppUrl : Option String

/-- The outcome of a statement that returns one row and reports every failure as a database error. -/
def FetchRow {α : Type} (found : α → Prop) : Except PasteurError α → Prop
  | .ok row => found row
  | .error (.database _) => True
  | .error _ => False

/-- An update of one user returns the changed row. -/
def AccountWorld.UpdatesUser (s : AccountWorld) (id : Uuid) (change : User → User → Prop) (row : User) :
    Prop :=
  ∃ old, s.users.find? id = some old ∧ change old row

/-- Which answers the world can give. -/
def AccountWorld.answers (state : AuthState) (s : AccountWorld) : Environment AccountStore
  | .now, _ => True
  | .issueAccessToken _, _ => True
  | .generateRefreshToken, generated =>
    generated.hash = state.hashToken generated.plaintext ∧ generated.hash ∉ s.seen
  | .hashPassword password, hash => state.argon2.verify password hash = true
  | .sendResetMail _ _ _, _ => True
  | .attemptAllowed ip debitOnFail, reply =>
    s.clock ≤ reply.time
      ∧ reply.retryAfter = (attemptAllowed state.loginCapacity s.buckets reply.time ip debitOnFail).1
  | .getUserByEmail email, fetched =>
    FetchOne (fun found => match found with
      | some user => user ∈ s.users ∧ user.email = email
      | none => ∀ user ∈ s.users.rows, user.email ≠ email) fetched
  | .getUserById id, fetched => FetchOne (fun found => found = s.users.find? id) fetched
  | .createUser email name role organizationId, created =>
    FetchRow (fun user => s.users.find? user.id = none ∧ (∀ other ∈ s.users.rows, other.email ≠ email)
      ∧ user = ⟨⟨user.id, organizationId, email, name, role.asStr, none, none, user.createdAt⟩, none, none,
        none, false⟩) created
  | .updateUser id name role organizationId, updated =>
    FetchRow (s.UpdatesUser id fun old row =>
      row = { old with name := name, role := role, organizationId := organizationId }) updated
  | .deleteUser _, executed => Executed executed
  | .updatePassword userId hash expiresAt, updated =>
    FetchRow (s.UpdatesUser userId fun old row =>
      row = { old with
        passwordHash := some hash
        passwordChangedAt := row.passwordChangedAt
        passwordExpiresAt := expiresAt
        mustChangePassword := false }) updated
  | .setMustChange userId must, updated =>
    FetchRow (s.UpdatesUser userId fun old row => row = { old with mustChangePassword := must }) updated
  | .removeMemberships _, executed => Executed executed
  | .getRefreshToken hash, fetched =>
    FetchOne (fun found => match found with
      | some token => token ∈ s.refreshTokens ∧ token.tokenHash = hash
      | none => ∀ token ∈ s.refreshTokens.rows, token.tokenHash ≠ hash) fetched
  | .createRefreshToken userId hash expiresAt, created =>
    FetchRow (fun token => s.refreshTokens.find? token.id = none
      ∧ (∀ other ∈ s.refreshTokens.rows, other.tokenHash ≠ hash)
      ∧ token = ⟨token.id, userId, hash, expiresAt, token.createdAt⟩) created
  | .deleteRefreshToken _, executed => Executed executed
  | .deleteRefreshTokenByHash _, executed => Executed executed
  | .deleteRefreshTokensOf _, deleted => FetchRow (fun _ => True) deleted
  | .getLastPasswords userId n, fetched => FetchRow (fun hashes => hashes = (s.history userId).take n) fetched
  | .pushPassword _ _, executed => Executed executed
  | .purgePasswords _ _, executed => Executed executed
  | .getResetToken hash, fetched =>
    FetchOne (fun found => match found with
      | some token => token ∈ s.resetTokens ∧ token.tokenHash = hash
      | none => ∀ token ∈ s.resetTokens.rows, token.tokenHash ≠ hash) fetched
  | .createResetToken userId hash expiresAt, created =>
    FetchRow (fun token => s.resetTokens.find? token.id = none
      ∧ (∀ other ∈ s.resetTokens.rows, other.tokenHash ≠ hash)
      ∧ token = ⟨token.id, userId, hash, expiresAt, token.createdAt, false⟩) created
  | .markResetTokenUsed _, executed => Executed executed

/-- What a statement that returned the changed user has done. -/
def AccountWorld.updateUsers (s : AccountWorld) : Except PasteurError User → AccountWorld
  | .ok user => { s with users := s.users.replace user }
  | .error _ => s

/-- `UPDATE password_reset_tokens SET used_at = NOW() WHERE id = ...` on one row. -/
def PasswordResetToken.markUsed (id : Uuid) (token : PasswordResetToken) : PasswordResetToken :=
  { token with used := token.used || token.id = id }

/-- The state after an operation: a statement that succeeded writes its row or deletes the ones it names. -/
def AccountWorld.next (state : AuthState) (s : AccountWorld) : Step AccountStore → AccountWorld
  | ⟨.generateRefreshToken, generated⟩ => { s with seen := generated.hash :: s.seen }
  | ⟨.attemptAllowed ip debitOnFail, reply⟩ =>
    { s with
      clock := reply.time
      buckets := (attemptAllowed state.loginCapacity s.buckets reply.time ip debitOnFail).2 }
  | ⟨.createUser _ _ _ _, .ok user⟩ => { s with users := s.users.insert user }
  | ⟨.updateUser _ _ _ _, updated⟩ => s.updateUsers updated
  -- The other tables refer to users with `ON DELETE CASCADE`.
  | ⟨.deleteUser id, .ok ()⟩ =>
    { s with
      users := s.users.delete fun user => user.id = id
      refreshTokens := s.refreshTokens.delete fun token => token.userId = id
      resetTokens := s.resetTokens.delete fun token => token.userId = id
      history := Function.update s.history id [] }
  | ⟨.updatePassword _ _ _, updated⟩ => s.updateUsers updated
  | ⟨.setMustChange _ _, updated⟩ => s.updateUsers updated
  | ⟨.createRefreshToken _ _ _, .ok token⟩ => { s with refreshTokens := s.refreshTokens.insert token }
  | ⟨.deleteRefreshToken id, .ok ()⟩ =>
    { s with refreshTokens := s.refreshTokens.delete fun token => token.id = id }
  | ⟨.deleteRefreshTokenByHash hash, .ok ()⟩ =>
    { s with refreshTokens := s.refreshTokens.delete fun token => token.tokenHash = hash }
  | ⟨.deleteRefreshTokensOf userId, .ok _⟩ =>
    { s with refreshTokens := s.refreshTokens.delete fun token => token.userId = userId }
  | ⟨.pushPassword userId hash, .ok ()⟩ =>
    { s with history := Function.update s.history userId (hash :: s.history userId) }
  | ⟨.purgePasswords userId keep, .ok ()⟩ =>
    { s with history := Function.update s.history userId ((s.history userId).take keep) }
  | ⟨.createResetToken _ _ _, .ok token⟩ => { s with resetTokens := s.resetTokens.insert token }
  | ⟨.markResetTokenUsed id, .ok ()⟩ =>
    { s with resetTokens := s.resetTokens.map (PasswordResetToken.markUsed id) fun _ => rfl }
  | _ => s

/-- The runs in which every answer is one that the state gives. -/
abbrev accountWorld (state : AuthState) : Monitor AccountStore where
  State := AccountWorld
  next := AccountWorld.next state
  accepts s step := s.answers state step.op step.answer

end Godwit
