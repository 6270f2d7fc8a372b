import Godwit.Admin.KeyStore

set_option autoImplicit false

/-! # Api keys: administration and authentication

The handlers of `admin/api_keys.rs` and the middleware `api_key_auth`, as programs over the key store. -/

namespace Godwit

/-- A handler that asks the key store. -/
abbrev KeyApp (ε : Type) := Program KeyStore ε

/-- Perform an operation of the key store. -/
def askKeys {ε : Type} (o : KeyOp) : KeyApp ε o.Answer := Program.perform (S := KeyStore) o

/-! ## Administration -/

/-- The body of `POST /api-keys`. -/
structure CreateApiKeyRequest where
  name : String
  scopes : List String
  allowedModels : List String
  rateLimitRequestsPerMinute : Option Int32
  rateLimitTokensPerMinute : Option Int32
  deriving DecidableEq, Repr

/-- What the handlers respond with. -/
inductive ApiKeyResponse where
  | keys (data : List ApiKeyRecord)
  | key (data : ApiKeyRecord)
  | deleted
  | created (id : Uuid) (key name : String)
  | regenerated (key : String) (id : Uuid) (createdAt : Timestamp)
  deriving DecidableEq, Repr

/-- `Role::from_str(&claims.role).ok_or(ApiError::Forbidden)?` -/
def claimedRole (claims : Claims) : KeyApp ApiError Role :=
  match Role.fromStr claims.role with
  | some role => .pure role
  | none => .throw .forbidden

/-- `if denied { return Err(ApiError::Forbidden) }` -/
def forbidIf (denied : Bool) : KeyApp ApiError Unit :=
  if denied then .throw .forbidden else .pure ()

/-- `.map_err(ApiError::Core)?` -/
def orCore {α : Type} (r : Except PasteurError α) : KeyApp ApiError α :=
  .ofExcept (r.mapError ApiError.core)

/-- The key belongs to an organization that the caller may not touch. -/
def foreignTo (role : Role) (claims : Claims) (key : ApiKeyRow) : Bool :=
  role ≠ .superAdmin && key.organizationId ≠ claims.organizationId

/-- `list_api_keys`: a super admin may name an organization or see every key. -/
def listApiKeys (claims : Claims) (organizationId : Option Uuid) : KeyApp ApiError ApiKeyResponse := do
  let role ← claimedRole claims
  forbidIf !role.canManageApiKeys
  let keys ← match role, organizationId with
    | .superAdmin, some orgId => askKeys (.listForOrganization orgId)
    | .superAdmin, none => askKeys .listAll
    | _, _ => askKeys (.listForOrganization claims.organizationId)
  let keys ← orCore keys
  pure (.keys (keys.map (·.toApiKeyRecord)))

/-- `get_api_key`. -/
def getApiKey (claims : Claims) (id : Uuid) : KeyApp ApiError ApiKeyResponse := do
  let role ← claimedRole claims
  forbidIf !role.canManageApiKeys
  let key ← orCore (← askKeys (.getById id))
  forbidIf (foreignTo role claims key)
  pure (.key key.toApiKeyRecord)

/-- `delete_api_key`. -/
def deleteApiKey (claims : Claims) (id : Uuid) : KeyApp ApiError ApiKeyResponse := do
  let role ← claimedRole claims
  forbidIf !role.canManageApiKeys
  let key ← orCore (← askKeys (.getById id))
  forbidIf (foreignTo role claims key)
  orCore (← askKeys (.delete id))
  pure .deleted

/-- `create_api_key`: the plaintext is in this answer only. -/
def createApiKey (claims : Claims) (req : CreateApiKeyRequest) : KeyApp ApiError ApiKeyResponse := do
  let role ← claimedRole claims
  forbidIf !role.canManageApiKeys
  let generated ← askKeys .generateApiKey
  let key ← orCore (← askKeys (.create {
    userId := claims.userId
    organizationId := claims.organizationId
    name := req.name
    keyPrefix := generated.keyPrefix
    keyHash := generated.hash
    scopes := req.scopes
    allowedModels := req.allowedModels
    budgetLimitUsd := none
    rateLimit := req.rateLimitRequestsPerMinute
    rateLimitTokensPerMinute := req.rateLimitTokensPerMinute }))
  pure (.created key.id generated.plaintext key.name)

-- The four handlers below look the key up and compare organizations; none of them asks whether the role
-- may manage keys.

/-- `block_key`: the role only decides about keys of other organizations. -/
def blockKey (claims : Claims) (id : Uuid) : KeyApp ApiError ApiKeyResponse := do
  let role ← claimedRole claims
  let key ← orCore (← askKeys (.getById id))
  forbidIf (foreignTo role claims key)
  let updated ← orCore (← askKeys (.setActive id false))
  pure (.key updated.toApiKeyRecord)

/-- `unblock_key`, which looks at the role as little as `block_key` does. -/
def unblockKey (claims : Claims) (id : Uuid) : KeyApp ApiError ApiKeyResponse := do
  let role ← claimedRole claims
  let key ← orCore (← askKeys (.getById id))
  forbidIf (foreignTo role claims key)
  let updated ← orCore (← askKeys (.setActive id true))
  pure (.key updated.toApiKeyRecord)

/-- `regenerate_key`: the row keeps its id and gets the prefix and hash of a new key. -/
def regenerateKey (claims : Claims) (id : Uuid) : KeyApp ApiError ApiKeyResponse := do
  let role ← claimedRole claims
  let key ← orCore (← askKeys (.getById id))
  forbidIf (foreignTo role claims key)
  let generated ← askKeys .generateApiKey
  let updated ← orCore (← askKeys (.regenerateKey id generated.keyPrefix generated.hash))
  pure (.regenerated generated.plaintext updated.id updated.createdAt)

/-- `reset_spend`. -/
def resetSpend (claims : Claims) (id : Uuid) : KeyApp ApiError ApiKeyResponse := do
  let role ← claimedRole claims
  let key ← orCore (← askKeys (.getById id))
  forbidIf (foreignTo role claims key)
  let updated ← orCore (← askKeys (.resetSpend id))
  pure (.key updated.toApiKeyRecord)

/-- The routes under `/api-keys`. -/
inductive ApiKeyCall where
  | list (organizationId : Option Uuid)
  | get (id : Uuid)
  | create (req : CreateApiKeyRequest)
  | delete (id : Uuid)
  | block (id : Uuid)
  | unblock (id : Uuid)
  | regenerate (id : Uuid)
  | resetSpend (id : Uuid)
  deriving DecidableEq, Repr

/-- A request to the key administration, with the claims of the access token. -/
structure ApiKeyRequest where
  claims : Claims
  call : ApiKeyCall
  deriving DecidableEq, Repr

/-- The handler of each request. -/
def ApiKeyRequest.serve (r : ApiKeyRequest) : KeyApp ApiError ApiKeyResponse :=
  match r.call with
  | .list organizationId => listApiKeys r.claims organizationId
  | .get id => getApiKey r.claims id
  | .create req => createApiKey r.claims req
  | .delete id => deleteApiKey r.claims id
  | .block id => blockKey r.claims id
  | .unblock id => unblockKey r.claims id
  | .regenerate id => regenerateKey r.claims id
  | .resetSpend id => resetSpend r.claims id

/-! ## Authentication -/

/-- How the middleware refuses a request. -/
inductive AuthFault where
  | status (code : Nat)
  | panic
  deriving DecidableEq, Repr

/-- `HeaderValue::to_str`: only visible ASCII, spaces and tabs. -/
def headerText (value : String) : Option String :=
  if value.toList.all fun c => c = '\t' ∨ 32 ≤ c.toNat ∧ c.toNat < 127 then some value else none

/-- `header.strip_prefix("Bearer ")` -/
def extractToken (header : String) : Option String :=
  if "Bearer ".toList.isPrefixOf header.toList then some (String.ofList (header.toList.drop 7)) else none

/-- The token of an `Authorization` header. -/
def bearerToken (authorization : Option String) : Option String :=
  (authorization.bind headerText).bind extractToken

/-- A cached key is used while it is neither disabled nor expired. -/
def usableFromCache (key : ApiKeyRow) (now : Timestamp) : Bool :=
  !key.disabled && (key.expiresAt.map fun e => decide (e > now)).getD true

/-- A key from the database is refused once its expiry has passed. -/
def expiredAt (key : ApiKeyRow) (now : Timestamp) : Bool :=
  (key.expiresAt.map fun e => decide (e < now)).getD false

/-- The fallback of `api_key_auth`: a lookup in the database by the visible part of the key. -/
def apiKeyAuthFallback (argon2 : Argon2) (auth : String) : KeyApp AuthFault ApiKeyRow :=
  match extractPrefix auth with
  | none => .throw .panic
  | some keyPrefix => do
    match ← askKeys (.getByPrefix keyPrefix) with
    | .error _ => .throw (.status 500)
    | .ok candidates =>
      match candidates.find? fun key => argon2.verify auth key.keyHash with
      | none => .throw (.status 401)
      | some key =>
        let now ← askKeys .now
        if key.disabled || expiredAt key now then
          .throw (.status 401)
        else
          askKeys (.cacheInsert auth key)
          pure key

/-- `api_key_auth`: the key that the request goes on with. -/
def apiKeyAuth (argon2 : Argon2) (authorization : Option String) : KeyApp AuthFault ApiKeyRow :=
  match bearerToken authorization with
  | none => .throw (.status 401)
  | some auth => do
    match ← askKeys (.cacheGet auth) with
    | some key =>
      let now ← askKeys .now
      if usableFromCache key now then pure key else apiKeyAuthFallback argon2 auth
    | none => apiKeyAuthFallback argon2 auth

/-! ## Traffic -/

/-- The requests that read or change keys. -/
inductive KeyTraffic where
  | admin (r : ApiKeyRequest)
  | authenticated (authorization : Option String)
  deriving DecidableEq, Repr

/-- What a request to the administration or to the proxy is answered. -/
inductive KeyReply where
  | admin (response : ApiKeyResponse)
  | passed (key : ApiKeyRow)
  deriving DecidableEq, Repr

/-- How such a request fails. -/
inductive KeyFault where
  | api (e : ApiError)
  | auth (e : AuthFault)
  deriving DecidableEq, Repr

/-- The administration, or the authentication in front of the proxy. -/
def KeyTraffic.serve (argon2 : Argon2) : KeyTraffic → KeyApp KeyFault KeyReply
  | .admin r => do
    let response ← r.serve.mapError .api
    pure (.admin response)
  | .authenticated authorization => do
    let key ← (apiKeyAuth argon2 authorization).mapError .auth
    pure (.passed key)

end Godwit
