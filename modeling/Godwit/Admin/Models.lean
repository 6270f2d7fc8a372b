import Godwit.Admin.ProviderProfiles
import Godwit.Lib.Joint

set_option autoImplicit false

/-! # Administration of models and aliases

The tables `models` and `model_aliases`, the statements of their repositories as operations, and the handlers of
`admin/models.rs` and `admin/model_aliases.rs`. The world has the table of the profiles beside them, since a model is
of a profile. -/

namespace Godwit

/-- A row of `model_aliases`, without its creation time. -/
structure ModelAlias where
  id : Uuid
  aliasName : String
  targetModelId : Uuid
  deriving DecidableEq, Repr

/-! ## Operations -/

/-- The statements of `ModelRepository` and `ModelAliasRepository`. -/
inductive ModelOp where
  | create (publicId provider : String) (providerProfileId : Uuid) (providerModelId : String)
      (capabilities : List String) (pricing : Json)
  | list
  | get (id : Uuid)
  | update (id : Uuid) (publicId : String) (capabilities : List String)
  | delete (id : Uuid)
  | createAlias (aliasName : String) (targetModelId : Uuid)
  | listAliases
  | deleteAlias (id : Uuid)

/-- What a statement returns that does not fail. -/
def ModelOp.Row : ModelOp → Type
  | .create _ _ _ _ _ _ | .get _ | .update _ _ _ => Model
  | .list => List Model
  | .createAlias _ _ => ModelAlias
  | .listAliases => List ModelAlias
  | .delete _ | .deleteAlias _ => Unit

/-- The statements and the rows they return. -/
abbrev ModelStore : Signature := ⟨ModelOp, fun o => Except PasteurError o.Row⟩

/-- The statements on profiles, and those on models and aliases. -/
abbrev CatalogStore : Signature := ProfileStore.sum ModelStore

/-! ## Statements -/

/-- The tables of the profile handlers together with `models` and `model_aliases`. -/
structure CatalogWorld extends ProfileWorld where
  models : Table Model.id
  aliases : Table ModelAlias.id

/-- `models_provider_check` -/
def allowedProviders : List String := ["openai", "anthropic", "gemini", "vllm", "sglang", "llama_cpp", "ollama"]

/-- `chk_models_capabilities` -/
def allowedCapabilities : List String :=
  ["chat", "image_generation", "image_edit", "video_generation", "audio_tts", "audio_stt", "embedding"]

/-- The constraints of the table on a row, beside its primary key: it is of a profile, and no other row of this
    profile has its public id. -/
structure CatalogWorld.AcceptsModel (s : CatalogWorld) (row : Model) : Prop where
  provider : row.provider ∈ allowedProviders
  capabilities : ∀ capability ∈ row.capabilities, capability ∈ allowedCapabilities
  profile : (s.profiles.find? row.providerProfileId).isSome = true
  unique : ∀ other ∈ s.models, other.providerProfileId = row.providerProfileId → other.publicId = row.publicId →
    other.id = row.id

/-- Which answers the database can give. -/
def CatalogWorld.answers (s : CatalogWorld) : Environment CatalogStore
  | .inl o, answer => s.toProfileWorld.answers o answer
  | .inr (.create publicId provider providerProfileId providerModelId capabilities pricing), created =>
    FetchRow (fun row => s.models.find? row.id = none ∧ s.AcceptsModel row
      ∧ row = ⟨row.id, publicId, provider, providerProfileId, providerModelId, capabilities, pricing, .obj []⟩) created
  | .inr .list, fetched => FetchAll s.models.rows fetched
  | .inr (.get id), fetched => FetchOne (fun found => found = s.models.find? id) fetched
  | .inr (.update id publicId capabilities), updated =>
    FetchRow (fun row => s.AcceptsModel row
      ∧ ∃ old, s.models.find? id = some old
        ∧ row = { old with publicId := publicId, capabilities := capabilities }) updated
  | .inr (.delete _), executed => Executed executed
  | .inr (.createAlias aliasName targetModelId), created =>
    FetchRow (fun row => s.aliases.find? row.id = none ∧ (∀ other ∈ s.aliases, other.aliasName ≠ aliasName)
      ∧ (s.models.find? targetModelId).isSome = true ∧ row = ⟨row.id, aliasName, targetModelId⟩) created
  | .inr .listAliases, fetched => FetchAll s.aliases.rows fetched
  | .inr (.deleteAlias _), executed => Executed executed

/-- The state after a statement. -/
def CatalogWorld.next (s : CatalogWorld) : Step CatalogStore → CatalogWorld
  | ⟨.inl o, answer⟩ => { s with toProfileWorld := s.toProfileWorld.next ⟨o, answer⟩ }
  | ⟨.inr (.create _ _ _ _ _ _), .ok row⟩ => { s with models := s.models.insert row }
  | ⟨.inr (.update _ _ _), .ok row⟩ => { s with models := s.models.replace row }
  -- the aliases of a model go with it
  | ⟨.inr (.delete id), .ok ()⟩ =>
    { s with
      models := s.models.delete fun row => row.id = id
      aliases := s.aliases.delete fun row => row.targetModelId = id }
  | ⟨.inr (.createAlias _ _), .ok row⟩ => { s with aliases := s.aliases.insert row }
  | ⟨.inr (.deleteAlias id), .ok ()⟩ => { s with aliases := s.aliases.delete fun row => row.id = id }
  | _ => s

/-- The runs in which every answer is one that the state gives. -/
abbrev catalogWorld : Monitor CatalogStore where
  State := CatalogWorld
  next := CatalogWorld.next
  accepts s step := s.answers step.op step.answer

/-! ## Handlers -/

/-- A handler that asks the model tables. -/
abbrev ModelApp := Program ModelStore ApiError

/-- Perform a statement; `.map_err(ApiError::Core)?`. -/
def askModels (o : ModelOp) : ModelApp o.Row := do
  let answer ← Program.perform (S := ModelStore) o
  .ofExcept (answer.mapError ApiError.core)

/-- The body of `POST /models`; the capabilities are one text with commas. -/
structure CreateModelRequest where
  publicId : String
  provider : String
  providerProfileId : Uuid
  providerModelId : String
  capabilities : String
  pricing : Json

/-- The body of a model update: what is absent stays. -/
structure UpdateModelRequest where
  publicId : Option String
  capabilities : Option String
  deriving DecidableEq, Repr

/-- The body of `POST /model-aliases`. -/
structure CreateAliasRequest where
  aliasName : String
  targetModelId : Uuid
  deriving DecidableEq, Repr

/-- `get_model`. -/
def getModel (claims : Claims) (id : Uuid) : ModelApp Model := do
  Program.ofExcept (checkSuperAdmin claims)
  askModels (.get id)

/-- `list_models` of the administration: every row. -/
def listModels (claims : Claims) : ModelApp (List Model) := do
  Program.ofExcept (checkSuperAdmin claims)
  askModels .list

/-- `ModelRepository::create`; the row is that of `ModelRepository.create`. -/
def insertModel (req : CreateModelRequest) : ModelApp Model := do
  Program.ofExcept ((validatePricing req.pricing).mapError ApiError.core)
  askModels (.create req.publicId req.provider req.providerProfileId req.providerModelId
    (parseCapabilities req.capabilities) req.pricing)

/-- `create_model`. -/
def createModel (claims : Claims) (req : CreateModelRequest) : ModelApp Model := do
  Program.ofExcept (checkSuperAdmin claims)
  insertModel req

/-- `ModelRepository::update`: what is not given is written back as it was read. -/
def updateModelRow (id : Uuid) (req : UpdateModelRequest) : ModelApp Model := do
  let current : Model ← askModels (.get id)
  askModels (.update id (req.publicId.getD current.publicId)
    ((req.capabilities.map parseCapabilities).getD current.capabilities))

/-- `update_model`. -/
def updateModel (claims : Claims) (id : Uuid) (req : UpdateModelRequest) : ModelApp Model := do
  Program.ofExcept (checkSuperAdmin claims)
  updateModelRow id req

/-- `delete_model`. -/
def deleteModel (claims : Claims) (id : Uuid) : ModelApp Unit := do
  Program.ofExcept (checkSuperAdmin claims)
  askModels (.delete id)

/-- `list_aliases`. -/
def listAliases (claims : Claims) : ModelApp (List ModelAlias) := do
  Program.ofExcept (checkSuperAdmin claims)
  askModels .listAliases

/-- The target is looked up before, and may be gone when the alias is inserted. -/
def createAlias (claims : Claims) (req : CreateAliasRequest) : ModelApp ModelAlias := do
  Program.ofExcept (checkSuperAdmin claims)
  let _ ← askModels (.get req.targetModelId)
  askModels (.createAlias req.aliasName req.targetModelId)

/-- `delete_alias`. -/
def deleteAlias (claims : Claims) (id : Uuid) : ModelApp Unit := do
  Program.ofExcept (checkSuperAdmin claims)
  askModels (.deleteAlias id)

/-! ## Requests -/

/-- The requests to the profile, model and alias handlers. -/
inductive CatalogCall where
  | profiles (call : ProfileCall)
  | listModels
  | getModel (id : Uuid)
  | createModel (req : CreateModelRequest)
  | updateModel (id : Uuid) (req : UpdateModelRequest)
  | deleteModel (id : Uuid)
  | listAliases
  | createAlias (req : CreateAliasRequest)
  | deleteAlias (id : Uuid)

/-- Such a request with the claims of its access token. -/
structure CatalogRequest where
  claims : Claims
  call : CatalogCall

/-- What these requests are answered. -/
inductive CatalogResponse where
  | profiles (response : ProfileResponse)
  | models (data : List Model)
  | model (data : Model)
  | aliases (data : List ModelAlias)
  | modelAlias (data : ModelAlias)
  | deleted

/-- A response with what a handler returns. -/
def catalogRespond {S : Signature} {α : Type} (p : Program S ApiError α) (response : α → CatalogResponse) :
    Program S ApiError CatalogResponse :=
  p >>= fun a => .pure (response a)

/-- The handler of each request. -/
def CatalogRequest.serve (crypto : CredentialCrypto) (masterKey : MasterKey) (r : CatalogRequest) :
    Program CatalogStore ApiError CatalogResponse :=
  match r.call with
  | .profiles call => (catalogRespond (ProfileRequest.serve crypto masterKey ⟨r.claims, call⟩) .profiles).embed .left
  | .listModels => (catalogRespond (listModels r.claims) .models).embed .right
  | .getModel id => (catalogRespond (getModel r.claims id) .model).embed .right
  | .createModel req => (catalogRespond (createModel r.claims req) .model).embed .right
  | .updateModel id req => (catalogRespond (updateModel r.claims id req) .model).embed .right
  | .deleteModel id => (catalogRespond (deleteModel r.claims id) fun _ => .deleted).embed .right
  | .listAliases => (catalogRespond (listAliases r.claims) .aliases).embed .right
  | .createAlias req => (catalogRespond (createAlias r.claims req) .modelAlias).embed .right
  | .deleteAlias id => (catalogRespond (deleteAlias r.claims id) fun _ => .deleted).embed .right

end Godwit
