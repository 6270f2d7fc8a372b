import Godwit.Auth.Credentials
import Godwit.Bin.Bootstrap

set_option autoImplicit false

/-! # Administration of provider profiles

The handlers of `admin/provider_profiles.rs` with the statements of `ProviderProfileRepository`, as programs
over the table. A statement fails and changes nothing, or does what its SQL says; a key that is given is
encrypted and stored by a statement of its own, after the one that creates or updates the row. -/

namespace Godwit

/-- A row of `provider_profiles`, without its adapter settings. -/
structure ProviderProfileRow extends ProviderProfile where
  createdAt : Timestamp

/-- The `provider_profiles` table. -/
abbrev ProviderProfileTable := Table fun row : ProviderProfileRow => row.id

/-! ## Operations -/

/-- What the profile handlers ask of the random generator and the database. -/
inductive ProfileOp where
  /-- The nonce that `encrypt_api_key` draws. -/
  | drawNonce
  | create (name protocol : String) (baseUrl : Option String) (allowWildcard : Bool)
  | list
  | get (id : Uuid)
  | update (id : Uuid) (baseUrl : Option String) (allowWildcard enabled : Bool)
  | setAuth (id : Uuid) (auth : Json)

/-- The answer to each of these. -/
def ProfileOp.Answer : ProfileOp → Type
  | .drawNonce => CredentialNonce
  | .create _ _ _ _ => Except PasteurError ProviderProfileRow
  | .list => Except PasteurError (List ProviderProfileRow)
  | .get _ => Except PasteurError ProviderProfileRow
  | .update _ _ _ _ => Except PasteurError ProviderProfileRow
  | .setAuth _ _ => Except PasteurError ProviderProfileRow

/-- The operations and their answers. -/
abbrev ProfileStore : Signature := ⟨ProfileOp, ProfileOp.Answer⟩

/-- The table. -/
structure ProfileWorld where
  profiles : ProviderProfileTable

/-- Which answers the database can give. The listing is ordered by name, in a collation of the database;
    here it may come in any order. -/
def ProfileWorld.answers (s : ProfileWorld) : Environment ProfileStore
  | .drawNonce, _ => True
  | .create name protocol baseUrl allowWildcard, created =>
    FetchRow (fun row => s.profiles.find? row.id = none ∧ (∀ other ∈ s.profiles.rows, other.name ≠ name)
      ∧ row = ⟨⟨row.id, name, protocol, baseUrl, allowWildcard, .obj [], true⟩, row.createdAt⟩) created
  | .list, fetched => FetchAll s.profiles.rows fetched
  | .get id, fetched => FetchOne (fun found => found = s.profiles.find? id) fetched
  | .update id baseUrl allowWildcard enabled, updated =>
    FetchRow (fun row => ∃ old, s.profiles.find? id = some old
      ∧ row = { old with baseUrl := baseUrl, allowWildcard := allowWildcard, enabled := enabled }) updated
  | .setAuth id auth, updated =>
    FetchRow (fun row => ∃ old, s.profiles.find? id = some old ∧ row = { old with auth := auth }) updated

/-- The state after a statement. -/
def ProfileWorld.next (s : ProfileWorld) : Step ProfileStore → ProfileWorld
  | ⟨.create _ _ _ _, .ok row⟩ => { s with profiles := s.profiles.insert row }
  | ⟨.update _ _ _ _, .ok row⟩ => { s with profiles := s.profiles.replace row }
  | ⟨.setAuth _ _, .ok row⟩ => { s with profiles := s.profiles.replace row }
  | _ => s

/-- The runs in which every answer is one that the state gives. -/
abbrev profileWorld : Monitor ProfileStore where
  State := ProfileWorld
  next := ProfileWorld.next
  accepts s step := s.answers step.op step.answer

/-! ## Handlers -/

/-- A handler that asks the profile store. -/
abbrev ProfileApp := Program ProfileStore ApiError

/-- One operation. -/
def askProfiles (o : ProfileOp) : ProfileApp o.Answer := Program.perform (S := ProfileStore) o

/-- `.map_err(ApiError::Core)?` -/
def orProfileError {α : Type} (r : Except PasteurError α) : ProfileApp α :=
  .ofExcept (r.mapError ApiError.core)

/-- What a profile shows of itself: whether it has credentials, and never which. -/
structure ProfileJson where
  id : Uuid
  name : String
  protocol : String
  baseUrl : Option String
  allowWildcard : Bool
  enabled : Bool
  hasCredentials : Bool
  createdAt : Timestamp
  deriving DecidableEq, Repr

/-- `profile_json`: the row without its credentials. -/
def profileJson (profile : ProviderProfileRow) : ProfileJson where
  id := profile.id
  name := profile.name
  protocol := profile.protocol
  baseUrl := profile.baseUrl
  allowWildcard := profile.allowWildcard
  enabled := profile.enabled
  hasCredentials := !emptyAuth profile.auth
  createdAt := profile.createdAt

/-- `require_super_admin` -/
def checkSuperAdmin (claims : Claims) : Except ApiError Unit :=
  match Role.fromStr claims.role with
  | none => .error .forbidden
  | some role => if role ≠ .superAdmin then .error .forbidden else .ok ()

/-- The body that creates a profile. -/
structure CreateProfileRequest where
  name : String
  protocol : String
  baseUrl : Option String
  apiKey : Option String
  allowWildcard : Bool
  deriving DecidableEq, Repr

/-- The body of a profile update: what is absent stays. -/
structure UpdateProfileRequest where
  baseUrl : Option String
  apiKey : Option String
  allowWildcard : Option Bool
  enabled : Option Bool
  deriving DecidableEq, Repr

/-- `list_profiles`. -/
def listProfiles (claims : Claims) : ProfileApp (List ProfileJson) := do
  Program.ofExcept (checkSuperAdmin claims)
  let profiles ← orProfileError (← askProfiles .list)
  pure (profiles.map profileJson)

/-- The last part of both handlers: a given key is encrypted and stored. -/
def storeApiKey (crypto : CredentialCrypto) (masterKey : MasterKey) (profile : ProviderProfileRow) :
    Option String → ProfileApp ProviderProfileRow
  | none => pure profile
  | some apiKey => do
    let nonce ← askProfiles .drawNonce
    orProfileError (← askProfiles (.setAuth profile.id (encryptApiKey crypto masterKey nonce apiKey).toValue))

/-- `create_profile`: the row is inserted without credentials, which a second statement adds. -/
def createProfile (crypto : CredentialCrypto) (masterKey : MasterKey) (claims : Claims) (req : CreateProfileRequest) :
    ProfileApp ProfileJson := do
  Program.ofExcept (checkSuperAdmin claims)
  let profile ← orProfileError (← askProfiles (.create req.name req.protocol req.baseUrl req.allowWildcard))
  let profile ← storeApiKey crypto masterKey profile req.apiKey
  pure (profileJson profile)

/-- `ProviderProfileRepository::update`: what is not given is written back as it was read. -/
def updateProfileRow (id : Uuid) (baseUrl : Option String) (allowWildcard enabled : Option Bool) :
    ProfileApp ProviderProfileRow := do
  let current ← orProfileError (← askProfiles (.get id))
  orProfileError (← askProfiles (.update id (baseUrl.or current.baseUrl)
    (allowWildcard.getD current.allowWildcard) (enabled.getD current.enabled)))

/-- `update_profile`: again the credentials are a statement of their own. -/
def updateProfile (crypto : CredentialCrypto) (masterKey : MasterKey) (claims : Claims) (id : Uuid)
    (req : UpdateProfileRequest) : ProfileApp ProfileJson := do
  Program.ofExcept (checkSuperAdmin claims)
  let profile ← updateProfileRow id req.baseUrl req.allowWildcard req.enabled
  let profile ← storeApiKey crypto masterKey profile req.apiKey
  pure (profileJson profile)

/-! ## Requests -/

/-- The requests to the profile handlers. -/
inductive ProfileCall where
  | list
  | create (req : CreateProfileRequest)
  | update (id : Uuid) (req : UpdateProfileRequest)
  deriving DecidableEq, Repr

/-- Such a request with the claims of its access token. -/
structure ProfileRequest where
  claims : Claims
  call : ProfileCall
  deriving DecidableEq, Repr

/-- The key that a request brings. -/
def ProfileRequest.apiKey (r : ProfileRequest) : Option String :=
  match r.call with
  | .list => none
  | .create req => req.apiKey
  | .update _ req => req.apiKey

/-- What these requests are answered. -/
inductive ProfileResponse where
  | profiles (data : List ProfileJson)
  | profile (data : ProfileJson)
  deriving DecidableEq, Repr

/-- The handler of each request. -/
def ProfileRequest.serve (crypto : CredentialCrypto) (masterKey : MasterKey) (r : ProfileRequest) :
    ProfileApp ProfileResponse :=
  match r.call with
  | .list => do pure (.profiles (← listProfiles r.claims))
  | .create req => do pure (.profile (← createProfile crypto masterKey r.claims req))
  | .update id req => do pure (.profile (← updateProfile crypto masterKey r.claims id req))

end Godwit
