import Godwit.Admin.Users
import Godwit.Admin.ApiKeys

set_option autoImplicit false

/-! # Sessions and passwords

The handlers of `admin/auth.rs` that issue, rotate and end sessions, and those of `admin/password.rs`,
as programs over the account store; and what `jwt_auth` and `cookie_csrf` of `middleware.rs` let through to
them. -/

namespace Godwit

/-! ## Token pairs -/

/-- The pair in the body, with its cookies. -/
structure TokenPair where
  accessToken : String
  refreshToken : String
  cookies : List String
  mustChangePassword : Option Bool
  deriving DecidableEq, Repr

/-- The end of a cookie, unless the configuration turns it off. -/
def secureAttribute (state : AuthState) : String := if state.cookieSecure then "; Secure" else ""

/-- `access_cookie`: the `Set-Cookie` header of the access token. -/
def accessCookie (state : AuthState) (token : String) : String :=
  "godwit_access=" ++ token ++ "; HttpOnly; Path=/; SameSite=Strict; Max-Age="
    ++ toString (state.accessTokenTtlMinutes * 60) ++ secureAttribute state

/-- `refresh_cookie`: the browser sends it to the authentication routes only. -/
def refreshCookie (state : AuthState) (token : String) : String :=
  "godwit_refresh=" ++ token ++ "; HttpOnly; Path=/api/v1/auth; SameSite=Strict; Max-Age="
    ++ toString (state.refreshTokenTtlDays * 86400) ++ secureAttribute state

/-- `HeaderValue::from_str`: no control characters but tabs. -/
def headerValue (value : String) : Except ApiError String :=
  if value.toList.all fun c => c = '\t' ∨ 32 ≤ c.toNat ∧ c.toNat ≠ 127 then .ok value
  else .error .internal

/-- A day in the unit of the timestamps. -/
def microsecondsPerDay : Int := 86400 * 1000000

/-- `issue_token_pair`: a signed access token, and a refresh token whose hash is stored. -/
def issueTokenPair (state : AuthState) (user : User) : AccountApp TokenPair := do
  let claims : Claims := ⟨user.id, user.organizationId.getD Uuid.nil, user.role⟩
  let accessToken ← orFail ((← askAccounts (.issueAccessToken claims)).mapError fun _ => .internal)
  let generated ← askAccounts .generateRefreshToken
  let now : Timestamp ← askAccounts .now
  let expiresAt := now + state.refreshTokenTtlDays * microsecondsPerDay
  let _ ← orCoreError (← askAccounts (.createRefreshToken user.id generated.hash expiresAt))
  let access ← orFail (headerValue (accessCookie state accessToken))
  let refresh ← orFail (headerValue (refreshCookie state generated.plaintext))
  pure ⟨accessToken, generated.plaintext, [access, refresh], none⟩

/-! ## Sessions -/

/-- A request to log in, with what the server knows about its sender. -/
structure LoginRequest where
  /-- The `X-Forwarded-For` header and the address of the peer. -/
  xForwardedFor : Option String
  peer : Option String
  email : String
  password : String
  deriving DecidableEq, Repr

/-- `client_ip`. -/
def clientIp (req : LoginRequest) (trustProxy : Bool) : String :=
  match trustProxy, req.xForwardedFor with
  | true, some xff =>
    ((((headerText xff).getD "").trimAscii.toString.splitOn ",").headD "").trimAscii.toString
  | _, _ => req.peer.getD "unknown"

/-- A wrong e-mail or password: refused, or told to wait once the limiter is out of tokens. -/
def refuseLogin (ip : String) : AccountApp TokenPair := do
  let reply : LimiterReply ← askAccounts (.attemptAllowed ip true)
  match reply.retryAfter with
  | some retryAfter => .throw (.rateLimited (some retryAfter))
  | none => .throw .unauthorized

/-- The password has an expiry and it has passed. -/
def passwordExpired (user : User) : AccountApp Bool :=
  match user.passwordExpiresAt with
  | none => pure false
  | some e => do
    let now : Timestamp ← askAccounts .now
    pure (decide (e < now))

/-- The password has to be changed: it is marked so, or it has expired. -/
def mustChange (user : User) : AccountApp Bool :=
  if user.mustChangePassword then pure true else passwordExpired user

/-- `login`: the limiter is asked only when the attempt fails. -/
def login (state : AuthState) (req : LoginRequest) : AccountApp TokenPair := do
  let ip := clientIp req state.trustProxy
  match ← askAccounts (.getUserByEmail req.email) with
  | .error _ => refuseLogin ip
  | .ok user =>
    match user.passwordHash with
    | none => .throw .unauthorized
    | some passwordHash =>
      if state.argon2.verify req.password passwordHash then
        let pair ← issueTokenPair state user
        let must ← mustChange user
        pure { pair with mustChangePassword := some must }
      else refuseLogin ip

/-- The token that a refresh or a logout presents: that of the cookie before that of the body. -/
structure PresentedToken where
  cookie : Option String
  body : Option String
  deriving DecidableEq, Repr

/-- The cookie comes before the body. -/
def PresentedToken.token (p : PresentedToken) : Option String := p.cookie.or p.body

/-- `refresh`: the row is read, then deleted by its id, and a new pair is issued. -/
def refresh (state : AuthState) (presented : PresentedToken) : AccountApp TokenPair :=
  match presented.token with
  | none => .throw .unauthorized
  | some token => do
    match ← askAccounts (.getRefreshToken (state.hashToken token)) with
    | .error _ => .throw .unauthorized
    | .ok stored =>
      let now : Timestamp ← askAccounts .now
      if stored.expiresAt < now then
        -- The outcome of this deletion is ignored.
        let _ ← askAccounts (.deleteRefreshToken stored.id)
        .throw .unauthorized
      else
        match ← askAccounts (.getUserById stored.userId) with
        | .error _ => .throw .unauthorized
        | .ok user =>
          orCoreError (← askAccounts (.deleteRefreshToken stored.id))
          issueTokenPair state user

/-- `logout`. -/
def logout (state : AuthState) (presented : PresentedToken) : AccountApp Unit :=
  match presented.token with
  | none => .throw .unauthorized
  | some token => do orCoreError (← askAccounts (.deleteRefreshTokenByHash (state.hashToken token)))

/-! ## Passwords -/

/-- What the password policy objects to. -/
inductive PolicyError where
  | tooShort
  | needsUpper
  | needsLower
  | needsDigit
  | needsSymbol
  | commonPassword
  | reused
  deriving DecidableEq, Repr

/-- The `Debug` text, which the handlers send. -/
def PolicyError.toText : PolicyError → String
  | .tooShort => "TooShort"
  | .needsUpper => "NeedsUpper"
  | .needsLower => "NeedsLower"
  | .needsDigit => "NeedsDigit"
  | .needsSymbol => "NeedsSymbol"
  | .commonPassword => "CommonPassword"
  | .reused => "Reused"

/-- `validate_password`: the first objection is reported. -/
def validatePassword (state : AuthState) (password : String) (history : List String) :
    Except PolicyError Unit := do
  let chars := password.toList
  if state.blockCommon && state.commonPasswords.contains (password.map Char.toLower) then
    throw .commonPassword
  if chars.length % 2 ^ 32 < state.minLength then throw .tooShort
  if state.requireUpper && !chars.any state.isUppercase then throw .needsUpper
  if state.requireLower && !chars.any state.isLowercase then throw .needsLower
  if state.requireDigit && !chars.any Char.isDigit then throw .needsDigit
  if state.requireSymbol && !chars.any fun c => !state.isAlphanumeric c then throw .needsSymbol
  if history.any fun h => state.argon2.verify password h then throw .reused

/-- When a password set now expires. -/
def passwordExpiry (state : AuthState) : AccountApp (Option Timestamp) :=
  if 0 < state.daysToExpire then do
    let now : Timestamp ← askAccounts .now
    pure (some (now + state.daysToExpire * microsecondsPerDay))
  else pure none

/-- `do_password_change`: the policy, the new hash, its expiry and the history. -/
def doPasswordChange (state : AuthState) (userId : Uuid) (newPassword : String) : AccountApp Unit := do
  let history ← orCoreError (← askAccounts (.getLastPasswords userId state.maxReuse))
  orFail ((validatePassword state newPassword history).mapError fun e => .badRequest e.toText)
  let hash ← askAccounts (.hashPassword newPassword)
  let expiresAt ← passwordExpiry state
  let _ ← orCoreError (← askAccounts (.updatePassword userId hash expiresAt))
  orCoreError (← askAccounts (.pushPassword userId hash))
  orCoreError (← askAccounts (.purgePasswords userId state.maxReuse))
  let _ ← orCoreError (← askAccounts (.deleteRefreshTokensOf userId))

/-- `change_password`: the current password is asked for. -/
def changePassword (state : AuthState) (claims : Claims) (currentPassword newPassword : String) :
    AccountApp Unit := do
  let user ← orCoreError (← askAccounts (.getUserById claims.userId))
  match user.passwordHash with
  | none => .throw (.badRequest "account has no password set")
  | some currentHash =>
    if state.argon2.verify currentPassword currentHash then
      doPasswordChange state claims.userId newPassword
    else .throw .unauthorized

/-- `change_required`: only for a user who has to change the password. -/
def changeRequired (state : AuthState) (claims : Claims) (newPassword : String) : AccountApp Unit := do
  let user ← orCoreError (← askAccounts (.getUserById claims.userId))
  let expired ← passwordExpired user
  if !user.mustChangePassword && !expired then .throw .forbidden
  else doPasswordChange state claims.userId newPassword

/-- `admin_reset_password`. -/
def adminResetPassword (state : AuthState) (claims : Claims) (userId : Uuid) (newPassword : String) :
    AccountApp Unit := do
  let callerRole ← orFail (requireRole claims [.superAdmin, .orgAdmin])
  orFail (if claims.userId = userId then .error (.badRequest "cannot reset your own password") else .ok ())
  let target ← orCoreError (← askAccounts (.getUserById userId))
  orFail (checkSameOrg callerRole claims target.organizationId)
  orFail (checkNotActingOnSuperAdmin callerRole target.role)
  doPasswordChange state target.id newPassword
  let _ ← orCoreError (← askAccounts (.setMustChange target.id true))

/-- `forgot_password`: the answer does not say whether the address is known. -/
def forgotPassword (state : AuthState) (email : String) : AccountApp Unit := do
  match ← askAccounts (.getUserByEmail email) with
  | .error _ => pure ()
  | .ok user =>
    let generated ← askAccounts .generateRefreshToken
    let now : Timestamp ← askAccounts .now
    -- The outcome of the insertion is ignored, the mail is sent in any case.
    let _ ← askAccounts (.createResetToken user.id generated.hash (now + 1800 * 1000000))
    match state.mailAppUrl with
    | some appUrl => askAccounts (.sendResetMail email appUrl generated.plaintext)
    | none => pure ()

/-- `reset_password`: the token is marked as used after the password has changed. -/
def resetPassword (state : AuthState) (token newPassword : String) : AccountApp Unit := do
  match ← askAccounts (.getResetToken (state.hashToken token)) with
  | .error _ => .throw (.badRequest "invalid or expired reset token")
  | .ok stored =>
    if stored.used then .throw (.badRequest "reset token already used")
    else
      let now : Timestamp ← askAccounts .now
      if stored.expiresAt < now then .throw (.badRequest "reset token expired")
      else
        doPasswordChange state stored.userId newPassword
        orCoreError (← askAccounts (.markResetTokenUsed stored.id))

/-! ## Requests -/

/-- The requests to the account endpoints. -/
inductive AccountRequest where
  | login (req : LoginRequest)
  | refresh (presented : PresentedToken)
  | logout (presented : PresentedToken)
  | changePassword (claims : Claims) (currentPassword newPassword : String)
  | changeRequired (claims : Claims) (newPassword : String)
  | adminResetPassword (claims : Claims) (userId : Uuid) (newPassword : String)
  | forgotPassword (email : String)
  | resetPassword (token newPassword : String)
  | createUser (claims : Claims) (req : CreateUserRequest)
  | updateUser (claims : Claims) (id : Uuid) (req : UpdateUserRequest)
  | deleteUser (claims : Claims) (id : Uuid)
  deriving DecidableEq, Repr

/-- What the account handlers answer. -/
inductive AccountResponse where
  | tokens (pair : TokenPair)
  | user (data : UserRecord)
  | done
  deriving DecidableEq, Repr

/-- The handler of each request. -/
def AccountRequest.serve (state : AuthState) : AccountRequest → AccountApp AccountResponse
  | .login req => do pure (.tokens (← Godwit.login state req))
  | .refresh presented => do pure (.tokens (← Godwit.refresh state presented))
  | .logout presented => do Godwit.logout state presented; pure .done
  | .changePassword claims currentPassword newPassword => do
    Godwit.changePassword state claims currentPassword newPassword
    pure .done
  | .changeRequired claims newPassword => do
    Godwit.changeRequired state claims newPassword
    pure .done
  | .adminResetPassword claims userId newPassword => do
    Godwit.adminResetPassword state claims userId newPassword
    pure .done
  | .forgotPassword email => do Godwit.forgotPassword state email; pure .done
  | .resetPassword token newPassword => do Godwit.resetPassword state token newPassword; pure .done
  | .createUser claims req => do pure (.user (← Godwit.createUser claims req))
  | .updateUser claims id req => do pure (.user (← Godwit.updateUser claims id req))
  | .deleteUser claims id => do Godwit.deleteUser claims id; pure .done

/-! ## The signed-in user -/

/-- `me`. The `sub` of a token that was issued is the text of its `user_id`. -/
def me (claims : Claims) : AccountApp UserRecord := do
  let user ← orFail ((← askAccounts (.getUserById claims.userId)).mapError fun _ => .unauthorized)
  pure user.toUserRecord

/-- `revoke_all_sessions`: how many tokens it has deleted. -/
def revokeAllSessions (claims : Claims) : AccountApp Nat := do
  orCoreError (← askAccounts (.deleteRefreshTokensOf claims.userId))

/-! ## Signing in with an identity provider -/

/-- What `OidcClient::exchange_code` reads off an id token. -/
structure OidcIdentity where
  email : String
  subject : String
  name : Option String
  deriving DecidableEq, Repr

/-- A configured identity provider as a request meets it: whether its metadata is served, and what it gives
    for a code, a state and the nonce that is expected. -/
structure OidcClient where
  id : String
  discovered : Bool
  exchangeCode (code csrf nonce : String) : Option OidcIdentity

/-- The query of the provider's redirect. -/
structure OidcCallback where
  code : String
  state : String
  deriving DecidableEq, Repr

/-- `oidc_callback`: the identity is looked up by its address, or becomes a new user. -/
def oidcCallback (state : AuthState) (providers : List OidcClient) (providerId : String)
    (params : OidcCallback) : AccountApp TokenPair := do
  let client ← orFail (match providers.find? (fun p => p.id = providerId) with
    | some client => .ok client
    | none => .error .notFound)
  orFail (if client.discovered then .ok () else .error .internal)
  let identity ← orFail (match client.exchangeCode params.code params.state "nonce" with
    | some identity => .ok identity
    | none => .error .unauthorized)
  match ← askAccounts (.getUserByEmail identity.email) with
  | .ok user => issueTokenPair state user
  | .error _ =>
    -- Any failure of the lookup counts as an unknown user.
    let user ← orFail ((← askAccounts (.createUser identity.email identity.name .user none)).mapError
      fun _ => .internal)
    issueTokenPair state user

/-- All requests that read or change sessions. -/
inductive SessionRequest where
  | account (req : AccountRequest)
  | me (claims : Claims)
  | revokeAllSessions (claims : Claims)
  | oidcCallback (providers : List OidcClient) (providerId : String) (params : OidcCallback)

/-- What the handlers behind the session routes answer. -/
inductive SessionResponse where
  | account (response : AccountResponse)
  | user (data : UserRecord)
  | revoked (n : Nat)
  deriving DecidableEq, Repr

/-- The handler of each request. -/
def SessionRequest.serve (state : AuthState) : SessionRequest → AccountApp SessionResponse
  | .account req => do pure (.account (← req.serve state))
  | .me claims => do pure (.user (← Godwit.me claims))
  | .revokeAllSessions claims => do pure (.revoked (← Godwit.revokeAllSessions claims))
  | .oidcCallback providers providerId params => do
    pure (.account (.tokens (← Godwit.oidcCallback state providers providerId params)))

/-! ## The middleware in front of the handlers -/

/-- The methods of HTTP that the middleware tells apart, and those that a route has. -/
inductive Method where
  | get
  | head
  | options
  | post
  | put
  | patch
  | delete
  deriving DecidableEq, Repr

/-- The methods for which the origin is checked. -/
def isStateChanging : Method → Bool
  | .post | .put | .patch | .delete => true
  | .get | .head | .options => false

/-- The headers that the middleware reads. -/
structure RequestHead where
  origin : Option String
  authorization : Option String
  cookie : Option String
  deriving DecidableEq, Repr

/-- The value of a part of a cookie header, if the part is of this name. -/
def cookiePart (name : String) (part : List Char) : Option String :=
  match (trimChars part).span (· ≠ '=') with
  | (_, []) => none
  | (key, _ :: value) => if trimChars key = name.toList then some (String.ofList (trimChars value)) else none

/-- `cookie_value`: the first cookie with the name. -/
def cookieValue (header : Option String) (name : String) : Option String :=
  (header.bind headerText).bind fun cookies => (cookies.toList.splitOn ';').findSome? (cookiePart name)

/-- `origin_allowed_from_config` -/
def originAllowed (allowed : String) (method : Method) (head : RequestHead) : Bool :=
  allowed.isEmpty || !isStateChanging method || head.origin.bind headerText = some allowed

/-- The allowed origin, and what `jwt::verify` gives for a token at a time. -/
structure GateConfig where
  allowedCookieOrigin : String
  verify (now : Timestamp) (token : String) : Option Claims

/-- A refusal of the middleware, or an error of the handler. -/
inductive HttpFault where
  | status (code : Nat)
  | api (e : ApiError)
  deriving DecidableEq, Repr

/-- The token of `jwt_auth`: that of the authorization before that of the cookie. -/
def RequestHead.accessToken (head : RequestHead) : Option String :=
  (bearerToken head.authorization).or (cookieValue head.cookie "godwit_access")

/-- `jwt_auth`: the origin of a cookie request, then the access token. -/
def jwtAuth (config : GateConfig) (now : Timestamp) (method : Method) (head : RequestHead) :
    Except HttpFault Claims :=
  if !originAllowed config.allowedCookieOrigin method head then .error (.status 403)
  else
    match head.accessToken with
    | none => .error (.status 401)
    | some token =>
      match config.verify now token with
      | none => .error (.status 401)
      | some claims => .ok claims

/-- `cookie_csrf`: the origin alone. -/
def cookieCsrf (config : GateConfig) (method : Method) (head : RequestHead) : Except HttpFault Unit :=
  if !originAllowed config.allowedCookieOrigin method head then .error (.status 403) else .ok ()

/-! ## The routes -/

/-- The routes behind `jwt_auth`. -/
inductive ProtectedCall where
  | changePassword (currentPassword newPassword : String)
  | changeRequired (newPassword : String)
  | adminResetPassword (userId : Uuid) (newPassword : String)
  | createUser (req : CreateUserRequest)
  | updateUser (id : Uuid) (req : UpdateUserRequest)
  | deleteUser (id : Uuid)
  | me
  | revokeAllSessions
  deriving DecidableEq, Repr

/-- The method of the route. -/
def ProtectedCall.method : ProtectedCall → Method
  | .me => .get
  | .updateUser _ _ => .patch
  | .deleteUser _ => .delete
  | _ => .post

/-- The request that reaches the handler, with the claims of the token. -/
def ProtectedCall.request (claims : Claims) : ProtectedCall → SessionRequest
  | .changePassword currentPassword newPassword => .account (.changePassword claims currentPassword newPassword)
  | .changeRequired newPassword => .account (.changeRequired claims newPassword)
  | .adminResetPassword userId newPassword => .account (.adminResetPassword claims userId newPassword)
  | .createUser req => .account (.createUser claims req)
  | .updateUser id req => .account (.updateUser claims id req)
  | .deleteUser id => .account (.deleteUser claims id)
  | .me => .me claims
  | .revokeAllSessions => .revokeAllSessions claims

/-- The routes behind `cookie_csrf`, with the token of the body. -/
inductive CookieCall where
  | refresh (body : Option String)
  | logout (body : Option String)
  deriving DecidableEq, Repr

/-- `refresh_token_from_cookie`. -/
def refreshTokenFromCookie (head : RequestHead) : Option String := cookieValue head.cookie "godwit_refresh"

/-- The request that reaches the handler, with the cookie. -/
def CookieCall.request (head : RequestHead) : CookieCall → SessionRequest
  | .refresh body => .account (.refresh ⟨refreshTokenFromCookie head, body⟩)
  | .logout body => .account (.logout ⟨refreshTokenFromCookie head, body⟩)

/-- The routes without a middleware. -/
inductive OpenCall where
  | login (req : LoginRequest)
  | oidcCallback (providers : List OidcClient) (providerId : String) (params : OidcCallback)
  | forgotPassword (email : String)
  | resetPassword (token newPassword : String)

/-- The request that reaches the handler. -/
def OpenCall.request : OpenCall → SessionRequest
  | .login req => .account (.login req)
  | .oidcCallback providers providerId params => .oidcCallback providers providerId params
  | .forgotPassword email => .account (.forgotPassword email)
  | .resetPassword token newPassword => .account (.resetPassword token newPassword)

/-- A route and the middleware in front of it. -/
inductive AuthRoute where
  | behindJwt (call : ProtectedCall)
  | behindCsrf (call : CookieCall)
  | unguarded (call : OpenCall)

/-- A request as it arrives, and when. -/
structure HttpRequest where
  head : RequestHead
  time : Timestamp
  route : AuthRoute

/-- The request that the middleware lets through to its handler. -/
def HttpRequest.pass (config : GateConfig) (r : HttpRequest) : Except HttpFault SessionRequest :=
  match r.route with
  | .behindJwt call => do
    let claims ← jwtAuth config r.time call.method r.head
    pure (call.request claims)
  | .behindCsrf call => do
    cookieCsrf config .post r.head
    pure (call.request r.head)
  | .unguarded call => pure call.request

/-- The middleware, then the handler. -/
def HttpRequest.serve (state : AuthState) (config : GateConfig) (r : HttpRequest) :
    Program AccountStore HttpFault SessionResponse := do
  let request ← .ofExcept (r.pass config)
  (request.serve state).mapError .api

end Godwit
