import Godwit.Lib.Table
import Godwit.Api.Gateway
import Godwit.Auth.Rbac

set_option autoImplicit false

/-! # The api keys behind the gateway

The `api_keys` table, the process-wide cache in front of it, and the statements of
`ApiKeyRepository` as operations. A statement either fails with a database error and changes nothing, or
it does what its SQL says in one step. Plaintext keys are drawn at random, so a drawn one was never seen
before: the world remembers the ones it has seen. -/

namespace Godwit

/-- A point in time, in microseconds. -/
abbrev Timestamp := Int

/-- What a key shows of itself in a response. -/
structure ApiKeyRecord extends ApiKey where
  name : String
  keyPrefix : String
  scopes : List String
  budgetLimitUsd : Option Decimal
  budgetSpentUsd : Decimal
  expiresAt : Option Timestamp
  disabled : Bool
  createdAt : Timestamp
  deriving DecidableEq, Repr

/-- A row of `api_keys`; the hash is never serialised. -/
structure ApiKeyRow extends ApiKeyRecord where
  keyHash : String
  deriving DecidableEq, Repr

/-- The `api_keys` table. -/
abbrev ApiKeyTable := Table fun row : ApiKeyRow => row.id

/-- The columns that `create` gives. -/
structure NewApiKey where
  userId : Uuid
  organizationId : Uuid
  name : String
  keyPrefix : String
  keyHash : String
  scopes : List String
  allowedModels : List String
  budgetLimitUsd : Option Decimal
  rateLimit : Option Int32
  rateLimitTokensPerMinute : Option Int32
  deriving DecidableEq, Repr

/-- The inserted row: the given columns and the defaults of the others. -/
def NewApiKey.row (key : NewApiKey) (id : Uuid) (createdAt : Timestamp) : ApiKeyRow where
  id := id
  userId := key.userId
  teamId := none
  organizationId := key.organizationId
  allowedModels := key.allowedModels
  rateLimitRequestsPerMinute := key.rateLimit
  rateLimitTokensPerMinute := key.rateLimitTokensPerMinute
  name := key.name
  keyPrefix := key.keyPrefix
  scopes := key.scopes
  budgetLimitUsd := key.budgetLimitUsd
  budgetSpentUsd := Decimal.zero
  expiresAt := none
  disabled := false
  createdAt := createdAt
  keyHash := key.keyHash

/-! ## Key material -/

/-- `PREFIX` of `api_keys.rs`. -/
def apiKeyPrefix : String := "sk-godwit-"

/-- `extract_prefix` on an ASCII key: the 16 bytes after the fixed part. Slicing a shorter key than the
    fixed part panics. -/
def extractPrefix (key : String) : Option String :=
  if key.toList.length < apiKeyPrefix.toList.length then none
  else some (String.ofList ((key.toList.drop apiKeyPrefix.toList.length).take 16))

/-- The password hash: which plaintexts a hash verifies. No two plaintexts share one. -/
structure Argon2 where
  verify : String → String → Bool
  exclusive : ∀ hash plaintext plaintext', verify plaintext hash = true →
    verify plaintext' hash = true → plaintext = plaintext'

/-- What `generate_api_key` returns. -/
structure GeneratedKey where
  plaintext : String
  hash : String
  keyPrefix : String
  deriving DecidableEq, Repr

/-! ## Operations -/

/-- What the key handlers and the authentication ask of the cache, the clock, the key generator and the
    database. -/
inductive KeyOp where
  | cacheGet (auth : String)
  | cacheInsert (auth : String) (key : ApiKeyRow)
  /-- The system clock. -/
  | now
  | generateApiKey
  | create (key : NewApiKey)
  | getByPrefix (keyPrefix : String)
  | listForOrganization (organizationId : Uuid)
  | listAll
  | getById (id : Uuid)
  | delete (id : Uuid)
  | setActive (id : Uuid) (active : Bool)
  | regenerateKey (id : Uuid) (keyPrefix keyHash : String)
  | resetSpend (id : Uuid)
  deriving DecidableEq, Repr

/-- The answer to each of these. -/
def KeyOp.Answer : KeyOp → Type
  | .cacheGet _ => Option ApiKeyRow
  | .cacheInsert _ _ => Unit
  | .now => Timestamp
  | .generateApiKey => GeneratedKey
  | .create _ => Except PasteurError ApiKeyRow
  | .getByPrefix _ => Except PasteurError (List ApiKeyRow)
  | .listForOrganization _ => Except PasteurError (List ApiKeyRow)
  | .listAll => Except PasteurError (List ApiKeyRow)
  | .getById _ => Except PasteurError ApiKeyRow
  | .delete _ => Except PasteurError Unit
  | .setActive _ _ => Except PasteurError ApiKeyRow
  | .regenerateKey _ _ _ => Except PasteurError ApiKeyRow
  | .resetSpend _ => Except PasteurError ApiKeyRow

/-- The operations and their answers. -/
abbrev KeyStore : Signature := ⟨KeyOp, KeyOp.Answer⟩

/-! ## Statements -/

/-- The outcome of a statement that returns one row: the row, `NotFound` where there is none, or a
    database error. -/
def FetchOne {α : Type} (found : Option α → Prop) : Except PasteurError α → Prop
  | .ok row => found (some row)
  | .error .notFound => found none
  | .error (.database _) => True
  | .error _ => False

/-- The outcome of a statement that returns rows, in any order where it gives none. -/
def FetchAll {α : Type} (rows : List α) : Except PasteurError (List α) → Prop
  | .ok fetched => fetched.Perm rows
  | .error (.database _) => True
  | .error _ => False

/-- The outcome of a statement that returns nothing. -/
def Executed : Except PasteurError Unit → Prop
  | .ok () => True
  | .error (.database _) => True
  | .error _ => False

/-- The table, the cache and the plaintext keys seen so far. -/
structure KeyWorld where
  keys : ApiKeyTable
  cache : String → Option ApiKeyRow
  issued : List String

/-- An update of one row: the row that it returns is the changed one, and without such a row it finds
    nothing. -/
def KeyWorld.Updates (s : KeyWorld) (id : Uuid) (change : ApiKeyRow → ApiKeyRow → Prop) :
    Option ApiKeyRow → Prop
  | some row => ∃ old, s.keys.find? id = some old ∧ change old row
  | none => s.keys.find? id = none

/-- Which answers the world can give. -/
def KeyWorld.answers (argon2 : Argon2) (s : KeyWorld) : Environment KeyStore
  | .cacheGet auth, cached => cached = s.cache auth
  | .cacheInsert _ _, _ => True
  | .now, _ => True
  | .generateApiKey, generated =>
    generated.plaintext ∉ s.issued ∧ argon2.verify generated.plaintext generated.hash = true
      ∧ extractPrefix generated.plaintext = some generated.keyPrefix
      ∧ ∃ random, generated.plaintext = apiKeyPrefix ++ random
  | .create key, .ok row =>
    row = key.row row.id row.createdAt ∧ s.keys.find? row.id = none
      ∧ ∀ other ∈ s.keys.rows, other.keyHash ≠ key.keyHash
  | .create _, .error e => ∃ msg, e = .database msg
  | .getByPrefix keyPrefix, fetched =>
    FetchAll (s.keys.rows.filter fun row => row.keyPrefix = keyPrefix ∧ row.disabled = false) fetched
  | .listForOrganization organizationId, fetched =>
    FetchAll (s.keys.rows.filter fun row => row.organizationId = organizationId) fetched
  | .listAll, fetched => FetchAll s.keys.rows fetched
  | .getById id, fetched => FetchOne (fun found => found = s.keys.find? id) fetched
  | .delete _, executed => Executed executed
  | .setActive id active, fetched =>
    FetchOne (s.Updates id fun old row => row = { old with disabled := !active }) fetched
  | .regenerateKey id keyPrefix keyHash, fetched =>
    FetchOne (s.Updates id fun old row =>
      row = { old with keyPrefix := keyPrefix, keyHash := keyHash, createdAt := row.createdAt }) fetched
  | .resetSpend id, fetched =>
    FetchOne (s.Updates id fun old row => row = { old with budgetSpentUsd := Decimal.zero }) fetched

/-- What a statement that returned the changed row has done. -/
def KeyWorld.update (s : KeyWorld) : Except PasteurError ApiKeyRow → KeyWorld
  | .ok row => { s with keys := s.keys.replace row }
  | .error _ => s

/-- The state after an operation; a regenerated or blocked key stays in the cache. -/
def KeyWorld.next (s : KeyWorld) : Step KeyStore → KeyWorld
  | ⟨.cacheInsert auth key, _⟩ => { s with cache := Function.update s.cache auth (some key) }
  | ⟨.generateApiKey, generated⟩ => { s with issued := generated.plaintext :: s.issued }
  | ⟨.create _, .ok row⟩ => { s with keys := s.keys.insert row }
  | ⟨.delete id, .ok ()⟩ => { s with keys := s.keys.delete fun row => row.id = id }
  | ⟨.setActive _ _, updated⟩ => s.update updated
  | ⟨.regenerateKey _ _ _, updated⟩ => s.update updated
  | ⟨.resetSpend _, updated⟩ => s.update updated
  | _ => s

/-- The runs in which every answer is one that the state gives. -/
abbrev keyWorld (argon2 : Argon2) : Monitor KeyStore where
  State := KeyWorld
  next := KeyWorld.next
  accepts s step := s.answers argon2 step.op step.answer

/-- Any answer: what is possible is up to the world. -/
def anyAnswer {S : Signature} : Environment S := fun _ _ => True

end Godwit
