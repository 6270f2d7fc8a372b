import Godwit.Db.Catalog
import Godwit.Lib.Firsts
import Godwit.Providers.Usage

set_option autoImplicit false

/-! # The instance-wide catalog (`20260803000002_instance_wide_catalog.up.sql`)

The migration that drops the organization of profiles and models: statement by statement, each with the checks that
the constraints of the schema make in it. A table is a list of tuples in the order in which a statement scans them;
a tuple is a row at a place, its `ctid`, and a row that is updated gets another one. -/

namespace Godwit

/-! ## The tables before -/

/-- A row of `provider_profiles`, without its adapter settings and creation time. -/
structure TenantProfile where
  id : Uuid
  organizationId : Uuid
  name : String
  protocol : String
  baseUrl : Option String
  auth : Json
  enabled : Bool

/-- A row of `models`, without its creation time. -/
structure TenantModel extends Model where
  organizationId : Uuid

/-- A row of `model_pricing`. -/
structure ModelPricing where
  modelId : Uuid
  inputPricePer1k : Decimal
  outputPricePer1k : Decimal

/-- A row at its place in the table. -/
structure Tuple (τ ρ : Type) where
  ctid : τ
  row : ρ

/-- The columns of `UNIQUE (organization_id, public_id, provider_profile_id)`. -/
def TenantModel.tenantKey (m : TenantModel) : Uuid × String × Uuid :=
  (m.organizationId, m.publicId, m.providerProfileId)

/-- The tables with the constraints of their schema. -/
structure TenantCatalog (τ : Type) where
  profiles : List (Tuple τ TenantProfile)
  models : List (Tuple τ TenantModel)
  pricing : List ModelPricing
  profileCtids_nodup : (profiles.map Tuple.ctid).Nodup
  modelCtids_nodup : (models.map Tuple.ctid).Nodup
  profileIds_nodup : (profiles.map fun p => p.row.id).Nodup
  modelIds_nodup : (models.map fun m => m.row.id).Nodup
  pricingIds_nodup : (pricing.map ModelPricing.modelId).Nodup
  profileNames_nodup : (profiles.map fun p => (p.row.organizationId, p.row.name)).Nodup
  publicIds_nodup : (models.map fun m => m.row.tenantKey).Nodup
  profile_exists : ∀ m ∈ models, ∃ p ∈ profiles, p.row.id = m.row.providerProfileId
  model_exists : ∀ price ∈ pricing, ∃ m ∈ models, m.row.id = price.modelId

/-! ## The statements -/

/-- The constraint that a statement of the migration violates. -/
inductive MigrationError where
  | unique (constraint : String)
  | foreignKey (constraint : String)
  deriving DecidableEq, Repr

section Statements

variable {τ : Type} [LinearOrder τ]

/-- `SELECT DISTINCT ON (name) id, name FROM provider_profiles ORDER BY name, ctid` -/
def survivors (profiles : List (Tuple τ TenantProfile)) : List (Tuple τ TenantProfile) :=
  firsts (fun p => p.row.name) Tuple.ctid profiles

/-- The profile that the join finds for a model, if it is another one. -/
def repointTarget (profiles : List (Tuple τ TenantProfile)) (m : TenantModel) : Option Uuid := do
  let p ← profiles.find? fun p => p.row.id = m.providerProfileId
  let s ← (survivors profiles).find? fun s => s.row.name = p.row.name
  if p.row.id ≠ s.row.id then some s.row.id else none

/-- The tuple after the update; `relocate` gives a new version its place. -/
def repoint (profiles : List (Tuple τ TenantProfile)) (relocate : τ → τ) (m : Tuple τ TenantModel) :
    Tuple τ TenantModel :=
  match repointTarget profiles m.row with
  | some id => ⟨relocate m.ctid, { m.row with providerProfileId := id }⟩
  | none => m

/-- `UPDATE models`: the tuples that are scanned and those that are not yet. The unique constraint is checked with
    every row. -/
def updateModels (profiles : List (Tuple τ TenantProfile)) (relocate : τ → τ) :
    List (Tuple τ TenantModel) → List (Tuple τ TenantModel) → Except MigrationError (List (Tuple τ TenantModel))
  | done, [] => .ok done
  | done, m :: rest =>
    let m' := repoint profiles relocate m
    if (repointTarget profiles m.row).isSome
        && (done ++ rest).any fun other => other.row.tenantKey = m'.row.tenantKey then
      .error (.unique "models_org_public_id_profile_unique")
    else updateModels profiles relocate (done ++ [m']) rest

/-- The foreign key of models, checked at the end of a statement. -/
def checkProfiles (profiles : List (Tuple τ TenantProfile)) (models : List (Tuple τ TenantModel)) :
    Except MigrationError Unit :=
  if models.all fun m => profiles.any fun p => p.row.id = m.row.providerProfileId then .ok ()
  else .error (.foreignKey "models_provider_profile_id_fkey")

/-- `DELETE FROM provider_profiles` -/
def deleteProfiles (profiles : List (Tuple τ TenantProfile)) : List (Tuple τ TenantProfile) :=
  profiles.filter fun p => (survivors profiles).any fun s => s.row.id = p.row.id

/-- `DELETE FROM models`: those that come after another with their profile and public id. -/
def deleteModels (models : List (Tuple τ TenantModel)) : List (Tuple τ TenantModel) :=
  firsts (fun m => (m.row.providerProfileId, m.row.publicId)) Tuple.ctid models

/-- `ON DELETE CASCADE` -/
def cascadePricing (models : List (Tuple τ TenantModel)) (pricing : List ModelPricing) : List ModelPricing :=
  pricing.filter fun price => models.any fun m => m.row.id = price.modelId

/-- `ADD CONSTRAINT … UNIQUE` -/
def checkUnique {κ : Type} [DecidableEq κ] (constraint : String) (keys : List κ) : Except MigrationError Unit :=
  if keys.Nodup then .ok () else .error (.unique constraint)

end Statements

/-! ## The tables after -/

/-- `DROP COLUMN organization_id, ADD COLUMN allow_wildcard BOOLEAN NOT NULL DEFAULT false` -/
def TenantProfile.instanceWide (p : TenantProfile) : ProviderProfile where
  id := p.id
  name := p.name
  protocol := p.protocol
  baseUrl := p.baseUrl
  allowWildcard := false
  auth := p.auth
  enabled := p.enabled

/-- The tables after the migration. -/
structure InstanceCatalog where
  profiles : List ProviderProfile
  models : List Model
  pricing : List ModelPricing

/-- The migration: its statements in order, with a check of the constraints after each. -/
def instanceWideCatalog {τ : Type} [LinearOrder τ] (relocate : τ → τ) (db : TenantCatalog τ) :
    Except MigrationError InstanceCatalog := do
  let models ← updateModels db.profiles relocate [] db.models
  checkProfiles db.profiles models
  let profiles := deleteProfiles db.profiles
  checkProfiles profiles models
  let models := deleteModels models
  let pricing := cascadePricing models db.pricing
  let profiles := profiles.map fun p => p.row.instanceWide
  checkUnique "provider_profiles_name_key" (profiles.map ProviderProfile.name)
  let models := models.map fun m => m.row.toModel
  checkUnique "models_provider_profile_id_public_id_key" (models.map fun m => (m.providerProfileId, m.publicId))
  pure ⟨profiles, models, pricing⟩

end Godwit
