import Godwit.Admin.AccountStore
import Godwit.Api.ModelRouter
import Godwit.Lib.Interruption

set_option autoImplicit false

/-! # What a startup writes (`godwit-bin/src/bootstrap.rs`)

The two functions that fill an empty database before the server listens, as programs over the statements that they
execute. A statement fails and changes nothing, or does what its SQL says; one whose answer is lost on the way is the
last one of a startup that is stopped. -/

namespace Godwit

/-- A provider of the configuration file. -/
structure LegacyProviderConfig where
  name : String
  protocol : String
  baseUrl : String
  apiKey : String
  deriving DecidableEq, Repr

/-! ## Operations -/

/-- What the startup asks of the database and the encryption. -/
inductive BootstrapOp where
  | listProfiles
  | createProfile (name protocol : String) (baseUrl : Option String) (allowWildcard : Bool)
  /-- `encrypt_api_key`, with a nonce of its own. -/
  | encryptApiKey (plaintext : String)
  | setAuth (id : Uuid) (secret : EncryptedSecret)
  | getUserByEmail (email : String)
  | listOrganizations
  | createOrganization (name : String) (rateLimit : Option Int32)
  /-- `hash_password`, with a salt of its own. -/
  | hashPassword (password : String)
  | createUser (email : String) (name : Option String) (role : Role) (organizationId : Option Uuid)
  /-- `UPDATE users SET password_hash = $1 WHERE id = $2` -/
  | setPasswordHash (hash : String) (id : Uuid)
  deriving DecidableEq, Repr

/-- The answer to each of these. -/
def BootstrapOp.Answer : BootstrapOp → Type
  | .listProfiles => Except PasteurError (List ProviderProfile)
  | .createProfile _ _ _ _ => Except PasteurError ProviderProfile
  | .encryptApiKey _ => EncryptedSecret
  | .setAuth _ _ => Except PasteurError ProviderProfile
  | .getUserByEmail _ => Except PasteurError User
  | .listOrganizations => Except PasteurError (List OrganizationRow)
  | .createOrganization _ _ => Except PasteurError OrganizationRow
  | .hashPassword _ => String
  | .createUser _ _ _ _ => Except PasteurError User
  | .setPasswordHash _ _ => Except PasteurError Unit

/-- The operations and their answers. -/
abbrev BootstrapStore : Signature := ⟨BootstrapOp, BootstrapOp.Answer⟩

/-- A part of the startup. -/
abbrev Bootstrap := Program BootstrapStore PasteurError

/-- One operation. -/
def askDatabase (o : BootstrapOp) : Bootstrap o.Answer := Program.perform (S := BootstrapStore) o

/-- `?` on the answer to a statement. -/
def orStop {α : Type} (r : Except PasteurError α) : Bootstrap α := .ofExcept r

/-! ## Programs -/

/-- The loop of `bootstrap_provider_profiles`. -/
def seedProfiles : List LegacyProviderConfig → Bootstrap Unit
  | [] => pure ()
  | provider :: legacy => do
    let profile ← orStop (← askDatabase
      (.createProfile provider.name provider.protocol (some provider.baseUrl) false))
    let secret ← askDatabase (.encryptApiKey provider.apiKey)
    let _ ← orStop (← askDatabase (.setAuth profile.id secret))
    seedProfiles legacy

/-- `bootstrap_provider_profiles`: the configured providers, if there is no profile yet. -/
def bootstrapProviderProfiles (legacy : List LegacyProviderConfig) : Bootstrap Unit := do
  let profiles ← orStop (← askDatabase .listProfiles)
  if profiles.isEmpty then seedProfiles legacy else pure ()

/-- The account, and then its password. -/
def createAdmin (email password : String) (org : OrganizationRow) : Bootstrap Unit := do
  let hash ← askDatabase (.hashPassword password)
  let user ← orStop (← askDatabase (.createUser email (some "Admin") .superAdmin (some org.id)))
  orStop (← askDatabase (.setPasswordHash hash user.id))

/-- `bootstrap_admin_user`: the organization, the user and its password, unless the user is found. -/
def bootstrapAdminUser (email password : String) : Bootstrap Unit := do
  let found ← askDatabase (.getUserByEmail email)
  match found with
  | .ok _ => pure ()
  -- Any error counts as that there is no user.
  | .error _ => do
    let existing ← orStop (← askDatabase .listOrganizations)
    match existing with
    | org :: _ => createAdmin email password org
    | [] => do
      let org ← orStop (← askDatabase (.createOrganization "Default Organization" none))
      createAdmin email password org

/-- What `main` does before it serves. -/
def startup (legacy : List LegacyProviderConfig) (email password : String) : Bootstrap Unit := do
  bootstrapProviderProfiles legacy
  bootstrapAdminUser email password

/-! ## The database -/

/-- The tables that the startup writes. -/
structure BootstrapWorld where
  profiles : Table ProviderProfile.id
  organizations : Table fun org : OrganizationRow => org.id
  users : UserTable

/-- The database after the migrations. -/
def BootstrapWorld.migrated : BootstrapWorld := ⟨.empty, .empty, .empty⟩

/-- The password hash and the decryption under the master key. -/
structure BootstrapKeys where
  argon2 : Argon2
  decryptApiKey : EncryptedSecret → Except PasteurError String

/-- `serde_json::to_value` -/
def EncryptedSecret.toValue (secret : EncryptedSecret) : Json :=
  .object [("ciphertext", .str secret.ciphertext), ("nonce", .str secret.nonce)]

/-- Which answers the tables can give; any statement may fail. -/
def BootstrapWorld.answers (keys : BootstrapKeys) (s : BootstrapWorld) : Environment BootstrapStore
  | .listProfiles, fetched => FetchAll s.profiles.rows fetched
  | .createProfile name protocol baseUrl allowWildcard, created =>
    FetchRow (fun profile => s.profiles.find? profile.id = none ∧ (∀ other ∈ s.profiles.rows, other.name ≠ name)
      ∧ profile = ⟨profile.id, name, protocol, baseUrl, allowWildcard, .obj [], true⟩) created
  | .encryptApiKey plaintext, secret => keys.decryptApiKey secret = .ok plaintext
  | .setAuth id secret, updated =>
    FetchRow (fun profile => ∃ old, s.profiles.find? id = some old
      ∧ profile = { old with auth := secret.toValue }) updated
  | .getUserByEmail email, fetched =>
    FetchOne (fun found => match found with
      | some user => user ∈ s.users ∧ user.email = email
      | none => ∀ user ∈ s.users.rows, user.email ≠ email) fetched
  | .listOrganizations, fetched => FetchAll s.organizations.rows fetched
  | .createOrganization name rateLimit, created =>
    FetchRow (fun org => s.organizations.find? org.id = none ∧ org = ⟨⟨org.id, rateLimit, none⟩, name⟩) created
  | .hashPassword password, hash => keys.argon2.verify password hash = true
  | .createUser email name role organizationId, created =>
    FetchRow (fun user => s.users.find? user.id = none ∧ (∀ other ∈ s.users.rows, other.email ≠ email)
      ∧ user = ⟨⟨user.id, organizationId, email, name, role.asStr, none, none, user.createdAt⟩, none, none,
        none, false⟩) created
  | .setPasswordHash _ _, executed => Executed executed

/-- `UPDATE users SET password_hash` on one row. -/
def User.withPasswordHash (hash : String) (id : Uuid) (user : User) : User :=
  { user with passwordHash := if user.id = id then some hash else user.passwordHash }

/-- The state after a statement. -/
def BootstrapWorld.next (s : BootstrapWorld) : Step BootstrapStore → BootstrapWorld
  | ⟨.createProfile _ _ _ _, .ok profile⟩ => { s with profiles := s.profiles.insert profile }
  | ⟨.setAuth _ _, .ok profile⟩ => { s with profiles := s.profiles.replace profile }
  | ⟨.createOrganization _ _, .ok org⟩ => { s with organizations := s.organizations.insert org }
  | ⟨.createUser _ _ _ _, .ok user⟩ => { s with users := s.users.insert user }
  | ⟨.setPasswordHash hash id, .ok ()⟩ =>
    { s with users := s.users.map (User.withPasswordHash hash id) fun _ => rfl }
  | _ => s

/-- The runs in which every answer is one that the state gives. -/
abbrev bootstrapWorld (keys : BootstrapKeys) : Monitor BootstrapStore where
  State := BootstrapWorld
  next := BootstrapWorld.next
  accepts s step := s.answers keys step.op step.answer

end Godwit
