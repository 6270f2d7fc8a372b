import Mathlib.Data.List.Nodup
import Godwit.Core.Error
import Godwit.Lib.Json
import Godwit.Lib.Text

set_option autoImplicit false

/-! # The model catalog (`godwit-db/src/models.rs` and its repositories)

Rows of the `models` and `provider_profiles` tables, and the queries the router makes on them. A
`Catalog` carries the constraints of the schema: primary keys, the unique profile name, one row per
profile and public id, and the foreign key from a model to its profile. -/

namespace Godwit

/-- `godwit_core::Capability`. -/
inductive Capability where
  | chat
  | imageGeneration
  | imageEdit
  | videoGeneration
  | audioTts
  | audioStt
  | embedding
  deriving DecidableEq, Repr

/-- `Capability::as_str`. -/
def Capability.asStr : Capability → String
  | .chat => "chat"
  | .imageGeneration => "image_generation"
  | .imageEdit => "image_edit"
  | .videoGeneration => "video_generation"
  | .audioTts => "audio_tts"
  | .audioStt => "audio_stt"
  | .embedding => "embedding"

/-- A row of `models`, without its creation time. -/
structure Model where
  id : Uuid
  publicId : String
  provider : String
  providerProfileId : Uuid
  providerModelId : String
  capabilities : List String
  pricing : Json
  config : Json
  deriving Repr, Inhabited

/-- The row lists the capability. -/
def Model.hasCapability (m : Model) (capability : Capability) : Bool :=
  m.capabilities.any (· == capability.asStr)

/-- A row of `provider_profiles`, without its adapter settings and creation time. -/
structure ProviderProfile where
  id : Uuid
  name : String
  protocol : String
  baseUrl : Option String
  allowWildcard : Bool
  auth : Json
  enabled : Bool
  deriving Repr, Inhabited

/-- What a query for one row may return: any of the rows it describes, and none only when there is none. -/
def IsRowOf {α : Type} (rows : List α) (p : α → Bool) : Option α → Prop
  | some row => row ∈ rows ∧ p row = true
  | none => ∀ row ∈ rows, p row = false

/-- The first of the rows may be returned. -/
theorem isRowOf_find? {α : Type} (rows : List α) (p : α → Bool) : IsRowOf rows p (rows.find? p) := by
  cases hfind : rows.find? p with
  | some row => exact ⟨List.mem_of_find?_eq_some hfind, List.find?_some hfind⟩
  | none =>
      intro row hrow
      simpa using List.find?_eq_none.1 hfind row hrow

/-- The two tables. `models` is in the order in which the listing query returns the rows; like every
    vector of the program it is shorter than `2 ^ 63`. The query by a public id alone names no order, so
    `anyRow` is whatever row of that id the database comes upon. -/
structure Catalog where
  models : List Model
  profiles : List ProviderProfile
  modelIds_nodup : (models.map Model.id).Nodup
  profileIds_nodup : (profiles.map ProviderProfile.id).Nodup
  profileNames_nodup : (profiles.map ProviderProfile.name).Nodup
  publicIds_nodup : (models.map fun m => (m.providerProfileId, m.publicId)).Nodup
  profile_exists : ∀ m ∈ models, ∃ p ∈ profiles, p.id = m.providerProfileId
  models_bounded : models.length < 2 ^ 63
  anyRow : String → Option Model := fun publicId => models.find? fun m => m.publicId = publicId
  anyRow_isRow : ∀ publicId, IsRowOf models (fun m => m.publicId = publicId) (anyRow publicId) := by
    exact fun _ => isRowOf_find? _ _

/-! ## Queries -/

/-- A row, or `NotFound`. -/
def rowOrNotFound {α : Type} : Option α → Except PasteurError α
  | some row => .ok row
  | none => .error .notFound

/-- `ProviderProfileRepository::get_by_name`. -/
def Catalog.getProfileByName (c : Catalog) (name : String) : Except PasteurError ProviderProfile :=
  rowOrNotFound (c.profiles.find? fun p => p.name = name)

/-- `ProviderProfileRepository::get`. -/
def Catalog.getProfile (c : Catalog) (id : Uuid) : Except PasteurError ProviderProfile :=
  rowOrNotFound (c.profiles.find? fun p => p.id = id)

/-- `ModelRepository::get_by_profile_and_public_id`. -/
def Catalog.getByProfileAndPublicId (c : Catalog) (profileId : Uuid) (publicId : String) :
    Except PasteurError Model :=
  rowOrNotFound (c.models.find? fun m => m.providerProfileId = profileId ∧ m.publicId = publicId)

/-- `ModelRepository::get_by_public_id`: one of the rows with that public id. -/
def Catalog.getByPublicId (c : Catalog) (publicId : String) : Except PasteurError Model :=
  rowOrNotFound (c.anyRow publicId)

/-! ## What the constraints give -/

/-- A query for a unique row finds the row it describes. -/
theorem rowOrNotFound_find?_eq_ok {α : Type} {rows : List α} {p : α → Bool}
    (hunique : ∀ x ∈ rows, ∀ y ∈ rows, p x = true → p y = true → x = y) {a : α} :
    rowOrNotFound (rows.find? p) = .ok a ↔ a ∈ rows ∧ p a = true := by
  constructor
  · intro h
    cases hfind : rows.find? p with
    | none => simp [rowOrNotFound, hfind] at h
    | some b =>
        obtain rfl : b = a := by simpa [rowOrNotFound, hfind] using h
        exact ⟨List.mem_of_find?_eq_some hfind, List.find?_some hfind⟩
  · rintro ⟨hmem, hp⟩
    cases hfind : rows.find? p with
    | none => exact absurd hp (by simpa using List.find?_eq_none.1 hfind a hmem)
    | some b =>
        obtain rfl := hunique b (List.mem_of_find?_eq_some hfind) a hmem (List.find?_some hfind) hp
        rfl

theorem Catalog.getProfile_eq_ok (c : Catalog) {p : ProviderProfile} {id : Uuid} :
    c.getProfile id = .ok p ↔ p ∈ c.profiles ∧ p.id = id := by
  refine (rowOrNotFound_find?_eq_ok fun x hx y hy hpx hpy => ?_).trans (by simp)
  exact List.inj_on_of_nodup_map c.profileIds_nodup hx hy (by simp_all)

theorem Catalog.getProfileByName_eq_ok (c : Catalog) {p : ProviderProfile} {name : String} :
    c.getProfileByName name = .ok p ↔ p ∈ c.profiles ∧ p.name = name := by
  refine (rowOrNotFound_find?_eq_ok fun x hx y hy hpx hpy => ?_).trans (by simp)
  exact List.inj_on_of_nodup_map c.profileNames_nodup hx hy (by simp_all)

theorem Catalog.getByProfileAndPublicId_eq_ok (c : Catalog) {m : Model} {profileId : Uuid}
    {publicId : String} :
    c.getByProfileAndPublicId profileId publicId = .ok m
      ↔ m ∈ c.models ∧ m.providerProfileId = profileId ∧ m.publicId = publicId := by
  refine (rowOrNotFound_find?_eq_ok fun x hx y hy hpx hpy => ?_).trans (by simp)
  exact List.inj_on_of_nodup_map c.publicIds_nodup hx hy (by simp_all)

/-- A public id that one row has is found with that row. -/
theorem Catalog.getByPublicId_eq_ok (c : Catalog) {m : Model} (hmem : m ∈ c.models)
    (hunique : ∀ other ∈ c.models, other.publicId = m.publicId → other = m) :
    c.getByPublicId m.publicId = .ok m := by
  have hrow := c.anyRow_isRow m.publicId
  unfold Catalog.getByPublicId
  cases hfound : c.anyRow m.publicId with
  | none =>
      rw [hfound] at hrow
      simpa using hrow m hmem
  | some other =>
      rw [hfound] at hrow
      rw [hunique other hrow.1 (by simpa using hrow.2)]
      rfl

/-- The queries for one row fail in one way only. -/
theorem rowOrNotFound_eq_error {α : Type} {row : Option α} {e : PasteurError}
    (h : rowOrNotFound row = .error e) : e = .notFound := by
  cases row with
  | none => simpa [rowOrNotFound] using h.symm
  | some a => simp [rowOrNotFound] at h

/-! ## New models -/

/-- The capabilities of a text with commas; chat when it names none. -/
def parseCapabilities (capabilities : String) : List String :=
  let caps := ((capabilities.splitOn ",").map trimText).filter (!·.isEmpty)
  if caps.isEmpty then ["chat"] else caps

/-- `validate_pricing`: both prices are there, whatever they are. -/
def validatePricing (pricing : Json) : Except PasteurError Unit :=
  let hasInputPrice := (pricing.get "input_price_per_million").isSome
  let hasOutputPrice := (pricing.get "output_price_per_million").isSome
  if !hasInputPrice || !hasOutputPrice then
    .error (.validation "pricing must include input_price_per_million and output_price_per_million")
  else .ok ()

/-- `ModelRepository::create`, up to the constraints of the table: the row that is inserted under a new id. -/
def ModelRepository.create (id : Uuid) (publicId provider : String) (providerProfileId : Uuid)
    (providerModelId capabilities : String) (pricing : Json) : Except PasteurError Model := do
  validatePricing pricing
  pure { id, publicId, provider, providerProfileId, providerModelId, pricing,
         capabilities := parseCapabilities capabilities, config := .obj [] }

theorem validatePricing_eq_ok {pricing : Json} : validatePricing pricing = .ok () ↔
    (pricing.get "input_price_per_million").isSome = true ∧ (pricing.get "output_price_per_million").isSome = true := by
  rw [validatePricing]
  cases (pricing.get "input_price_per_million").isSome <;> cases (pricing.get "output_price_per_million").isSome <;>
    simp

/-- What is stored was accepted. -/
theorem ModelRepository.create_accepted {id providerProfileId : Uuid}
    {publicId provider providerModelId capabilities : String} {pricing : Json} {row : Model}
    (h : ModelRepository.create id publicId provider providerProfileId providerModelId capabilities pricing = .ok row) :
    validatePricing row.pricing = .ok () ∧ row.pricing = pricing := by
  unfold ModelRepository.create at h
  cases haccepted : validatePricing pricing with
  | error e =>
      rw [haccepted] at h
      cases h
  | ok _ =>
      rw [haccepted] at h
      cases h
      exact ⟨haccepted, rfl⟩

end Godwit
