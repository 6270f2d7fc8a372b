import Godwit.Providers.Adapter
import Godwit.Api.LoadBalancer

set_option autoImplicit false

/-! # Resolving a model reference (`godwit-api/src/model_router.rs`)

A reference is `profile/public_id` or a bare `public_id`. A bare one may have several rows, one of
which the load balancer picks. The listing of `/v1/models` (`proxy.rs`) is here too, because the
router decides what the listed ids mean. -/

namespace Godwit

/-! ## Listing -/

/-- `filter_models_with_enabled_profiles`: the enabled flags are collected into a map, so the last
    profile of an id counts. -/
def filterModelsWithEnabledProfiles (models : List Model) (profiles : List ProviderProfile) :
    List Model :=
  models.filter fun m =>
    ((profiles.reverse.find? fun p => p.id = m.providerProfileId).map (·.enabled)).getD false

/-! ## Credentials -/

/-- `EncryptedSecret` of `godwit-auth`. -/
structure EncryptedSecret where
  ciphertext : String
  nonce : String
  deriving DecidableEq, Repr

/-- How stored credentials are read: the deserializer of `EncryptedSecret` and the decryption under
    the master key. -/
structure CredentialVault where
  fromValue : Json → Except String EncryptedSecret
  decryptApiKey : EncryptedSecret → Except PasteurError String

/-- The auth column holds no credentials. -/
def emptyAuth : Json → Bool
  | .null => true
  | .obj [] => true
  | _ => false

/-- The router: the tables it reads, the adapters and the stored credentials. -/
structure DbModelRouter where
  catalog : Catalog
  /-- The protocols with a registered adapter. -/
  registry : List String
  vault : CredentialVault

/-- `resolve_credentials`: a profile without a base URL cannot be used. -/
def DbModelRouter.resolveCredentials (r : DbModelRouter) (profile : ProviderProfile) :
    Except PasteurError ResolvedProfile :=
  match profile.baseUrl with
  | none => .error (.provider ("provider profile '" ++ profile.name ++ "' has no base_url configured"))
  | some baseUrl =>
    if emptyAuth profile.auth then .ok ⟨baseUrl, none⟩
    else
      match r.vault.fromValue profile.auth with
      | .error e => .error (.provider ("malformed stored credentials: " ++ e))
      | .ok secret =>
        match r.vault.decryptApiKey secret with
        | .error e =>
          .error (.provider ("failed to decrypt stored provider credentials: " ++ e.toText))
        | .ok apiKey => .ok ⟨baseUrl, some apiKey⟩

/-! ## Choosing a row -/

/-- `str::split_once('/')`. -/
def splitOnce (ref : String) : Option (String × String) :=
  match ref.toList.span (· ≠ '/') with
  | (name, _ :: rest) => some (String.ofList name, String.ofList rest)
  | (_, []) => none

/-- `ensure_enabled`. -/
def ensureEnabled (profile : ProviderProfile) : Except PasteurError ProviderProfile :=
  if !profile.enabled then .error .notFound else .ok profile

/-- `LoadBalanceStrategy::from_config`. -/
def LoadBalanceStrategy.fromConfig (config : Json) : Option LoadBalanceStrategy :=
  match (config.get "load_balance").bind Json.asStr with
  | some "round_robin" => some .roundRobin
  | some "least_busy" => some .leastBusy
  | some "latency" => some .latency
  | _ => none

/-- `strategy_for`: the strategy of the first row, or round robin. -/
def strategyFor (candidates : List Model) : LoadBalanceStrategy :=
  (candidates.head?.bind fun m => LoadBalanceStrategy.fromConfig m.config).getD .roundRobin

/-- `select_load_balanced`, for a non-empty list. -/
def selectLoadBalanced (lb : LoadBalancer) (candidates : List Model)
    (strategy : LoadBalanceStrategy) : Option Model × LoadBalancer :=
  let (idx, lb) := lb.selectProvider strategy (candidates.map Model.id)
  (candidates[idx.getD 0]?, lb)

/-- `fallback_chain`: the strings of the `fallbacks` array. -/
def fallbackChain (model : Model) : List String :=
  match (model.config.get "fallbacks").bind Json.asArray with
  | some items => items.filterMap Json.asStr
  | none => []

/-- The row made up for a reference to a wildcard profile. -/
def wildcardModel (modelRef suffix : String) (profile : ProviderProfile) (capability : Capability) :
    Model where
  id := Uuid.nil
  publicId := modelRef
  provider := profile.protocol
  providerProfileId := profile.id
  providerModelId := suffix
  capabilities := [capability.asStr]
  pricing := .obj []
  config := .obj []

/-- The row and the enabled profile of a reference to a profile. -/
def DbModelRouter.qualifiedRow (r : DbModelRouter) (modelRef name suffix : String)
    (capability : Capability) : Except PasteurError (Model × ProviderProfile) := do
  let profile ← ensureEnabled (← r.catalog.getProfileByName name)
  match r.catalog.getByProfileAndPublicId profile.id suffix with
  | .ok model => .ok (model, profile)
  | .error .notFound =>
    if profile.allowWildcard then .ok (wildcardModel modelRef suffix profile capability, profile)
    else .error .notFound
  | .error e => .error e

/-- A chosen row with its profile, which must be enabled. -/
def DbModelRouter.withProfile (r : DbModelRouter) (model : Model) :
    Except PasteurError (Model × ProviderProfile) := do
  let profile ← ensureEnabled (← r.catalog.getProfile model.providerProfileId)
  .ok (model, profile)

/-- The rows of a bare public id. -/
def DbModelRouter.candidates (r : DbModelRouter) (publicId : String) : List Model :=
  r.catalog.models.filter fun m => m.publicId = publicId

/-- The row and the enabled profile of a bare reference. -/
def DbModelRouter.bareRow (r : DbModelRouter) (lb : LoadBalancer) (publicId : String) :
    Except PasteurError (Model × ProviderProfile) × LoadBalancer :=
  match r.candidates publicId with
  | [] => (.error .notFound, lb)
  | [model] => (r.withProfile model, lb)
  | candidates =>
    match selectLoadBalanced lb candidates (strategyFor candidates) with
    | (some model, lb) => (r.withProfile model, lb)
    -- an index outside the candidates panics; `selectLoadBalanced_isSome` excludes it
    | (none, lb) => (.error .notFound, lb)

/-- The row for a reference, which is qualified with a profile name or bare. -/
def DbModelRouter.chooseRow (r : DbModelRouter) (lb : LoadBalancer) (modelRef : String)
    (capability : Capability) : Except PasteurError (Model × ProviderProfile) × LoadBalancer :=
  match splitOnce modelRef with
  | some (name, suffix) => (r.qualifiedRow modelRef name suffix capability, lb)
  | none => r.bareRow lb modelRef

/-! ## resolve -/

/-- `ResolvedModel`. The adapter is named by its protocol, and `inFlight` is the id whose in-flight
    count the guard holds. -/
structure ResolvedModel where
  model : Model
  profile : ProviderProfile
  resolvedCredentials : ResolvedProfile
  adapter : String
  inFlight : Option Uuid
  deriving Repr, Inhabited

/-- `resolve`: the row, its capability, its adapter and its credentials. -/
def DbModelRouter.resolve (r : DbModelRouter) (lb : LoadBalancer) (modelRef : String)
    (capability : Capability) : Except PasteurError ResolvedModel × LoadBalancer :=
  match r.chooseRow lb modelRef capability with
  | (.error e, lb) => (.error e, lb)
  | (.ok (model, profile), lb) =>
    if !model.hasCapability capability then
      (.error (.validation
        ("model " ++ model.publicId ++ " does not support " ++ capability.asStr)), lb)
    else
      let inFlight := if model.id = Uuid.nil then none else some model.id
      match r.resolveCredentials profile with
      -- the guard is dropped on the way out
      | .error e => (.error e, lb)
      | .ok credentials =>
        if profile.protocol ∈ r.registry then
          (.ok ⟨model, profile, credentials, profile.protocol, inFlight⟩,
            inFlight.elim lb lb.incrementInFlight)
        else (.error (.provider ("unknown protocol: " ++ profile.protocol)), lb)

end Godwit
