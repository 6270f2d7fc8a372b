import Godwit.Db.InstanceWideCatalog

set_option autoImplicit false

/-! # The migration keeps the catalog

Models are pointed at the first profile with the name of theirs. Within one organization a name belongs to one
profile, so no two models of an organization get the same key, and the update never meets its unique constraint.
After it every model has a surviving profile, which makes the deletions safe. -/

namespace Godwit

/-- A search finds the only row that there is. -/
theorem find?_eq_some_of_unique {ρ : Type} {rows : List ρ} {p : ρ → Bool} {row : ρ} (hmem : row ∈ rows)
    (hp : p row = true) (hunique : ∀ other ∈ rows, p other = true → other = row) : rows.find? p = some row := by
  cases hfind : rows.find? p with
  | none => exact absurd hp (List.find?_eq_none.1 hfind row hmem)
  | some other => rw [hunique other (List.mem_of_find?_eq_some hfind) (List.find?_some hfind)]

variable {τ : Type}

/-- Every model has a profile of its own organization. -/
def TenantCatalog.OwnProfiles (db : TenantCatalog τ) : Prop :=
  ∀ m ∈ db.models, ∀ p ∈ db.profiles, p.row.id = m.row.providerProfileId →
    p.row.organizationId = m.row.organizationId

namespace TenantCatalog

variable {db : TenantCatalog τ} {p p' : Tuple τ TenantProfile} {m m' : Tuple τ TenantModel}

theorem profile_eq_of_id (h : p ∈ db.profiles) (h' : p' ∈ db.profiles) (hid : p.row.id = p'.row.id) : p = p' :=
  List.inj_on_of_nodup_map db.profileIds_nodup h h' hid

theorem profile_eq_of_name (h : p ∈ db.profiles) (h' : p' ∈ db.profiles)
    (horg : p.row.organizationId = p'.row.organizationId) (hname : p.row.name = p'.row.name) : p = p' :=
  List.inj_on_of_nodup_map db.profileNames_nodup h h' (Prod.ext horg hname)

theorem model_eq_of_key (h : m ∈ db.models) (h' : m' ∈ db.models) (hkey : m.row.tenantKey = m'.row.tenantKey) :
    m = m' :=
  List.inj_on_of_nodup_map db.publicIds_nodup h h' hkey

variable [LinearOrder τ]

/-- The profile of a model, and the one that it is pointed at. -/
structure Repointed (db : TenantCatalog τ) (m : TenantModel) (p s : Tuple τ TenantProfile) : Prop where
  profile : p ∈ db.profiles
  owner : p.row.id = m.providerProfileId
  survivor : s ∈ survivors db.profiles
  name : s.row.name = p.row.name
  target : repointTarget db.profiles m = if p.row.id ≠ s.row.id then some s.row.id else none

theorem exists_repointed (hm : m ∈ db.models) : ∃ p s, db.Repointed m.row p s := by
  obtain ⟨p, hp, hid⟩ := db.profile_exists m hm
  obtain ⟨s, hs, hname⟩ := @exists_mem_firsts _ _ _ _ _ (fun p => p.row.name) Tuple.ctid _ _ hp
  refine ⟨p, s, hp, hid, hs, hname, ?_⟩
  have hfind : (db.profiles.find? fun p => p.row.id = m.row.providerProfileId) = some p := by
    refine find?_eq_some_of_unique hp (by simpa using hid) fun other hother hsame => ?_
    exact profile_eq_of_id hother hp ((of_decide_eq_true hsame).trans hid.symm)
  have hfind' : ((survivors db.profiles).find? fun s => s.row.name = p.row.name) = some s := by
    refine find?_eq_some_of_unique hs (by simpa using hname) fun other hother hsame => ?_
    exact firsts_unique db.profileCtids_nodup hother hs ((of_decide_eq_true hsame).trans hname.symm)
  rw [repointTarget, hfind, Option.bind_eq_bind, Option.bind_some, hfind', Option.bind_some]

/-- The model after the update. -/
theorem Repointed.repoint_row {s : Tuple τ TenantProfile} (h : db.Repointed m.row p s) (relocate : τ → τ) :
    (repoint db.profiles relocate m).row = { m.row with providerProfileId := s.row.id } := by
  rw [repoint, h.target]
  by_cases hsame : p.row.id = s.row.id
  · rw [if_neg (not_not.2 hsame), ← hsame, h.owner]
  · rw [if_pos hsame]

/-- Two models of one organization whose profiles have the same name have the same profile. -/
theorem Repointed.profile_eq (hown : db.OwnProfiles) (hm : m ∈ db.models) (hm' : m' ∈ db.models)
    {s s' : Tuple τ TenantProfile} (h : db.Repointed m.row p s) (h' : db.Repointed m'.row p' s')
    (horg : m.row.organizationId = m'.row.organizationId) (hname : p.row.name = p'.row.name) : p = p' := by
  refine profile_eq_of_name h.profile h'.profile ?_ hname
  rw [hown m hm p h.profile h.owner, hown m' hm' p' h'.profile h'.owner, horg]

/-- Different models have different keys after the update. -/
theorem repoint_key_ne (hown : db.OwnProfiles) (relocate : τ → τ) (hm : m ∈ db.models) (hm' : m' ∈ db.models)
    (hne : m ≠ m') : (repoint db.profiles relocate m').row.tenantKey
      ≠ (repoint db.profiles relocate m).row.tenantKey := by
  obtain ⟨p, s, h⟩ := exists_repointed hm
  obtain ⟨p', s', h'⟩ := exists_repointed hm'
  rw [h.repoint_row, h'.repoint_row]
  intro hkey
  simp only [TenantModel.tenantKey, Prod.mk.injEq] at hkey
  obtain ⟨horg, hpublic, hid⟩ := hkey
  have hs : s' = s := profile_eq_of_id (firsts_subset h'.survivor) (firsts_subset h.survivor) hid
  have hp : p' = p := h'.profile_eq hown hm' hm h horg (by rw [← h'.name, ← h.name, hs])
  refine hne (model_eq_of_key hm hm' ?_)
  simp only [TenantModel.tenantKey, Prod.mk.injEq]
  exact ⟨horg.symm, hpublic.symm, by rw [← h.owner, ← h'.owner, hp]⟩

/-- A model that is pointed at another profile does not get the key that another model has before. -/
theorem repoint_key_ne_old (hown : db.OwnProfiles) (relocate : τ → τ) (hm : m ∈ db.models) (hm' : m' ∈ db.models)
    (htarget : (repointTarget db.profiles m.row).isSome) :
    m'.row.tenantKey ≠ (repoint db.profiles relocate m).row.tenantKey := by
  obtain ⟨p, s, h⟩ := exists_repointed hm
  obtain ⟨p', s', h'⟩ := exists_repointed hm'
  rw [h.repoint_row]
  intro hkey
  simp only [TenantModel.tenantKey, Prod.mk.injEq] at hkey
  obtain ⟨horg, -, hid⟩ := hkey
  have hs : p' = s := profile_eq_of_id h'.profile (firsts_subset h.survivor) (h'.owner.trans hid)
  have hp : p' = p := h'.profile_eq hown hm' hm h horg (by rw [hs, h.name])
  rw [h.target, if_neg (by rw [← hp, ← hs, not_not])] at htarget
  cases htarget

/-- The update completes, in whatever order it scans the models. -/
theorem updateModels_ok (hown : db.OwnProfiles) (relocate : τ → τ) (done rest : List (Tuple τ TenantModel))
    (hmodels : done ++ rest = db.models) :
    updateModels db.profiles relocate (done.map (repoint db.profiles relocate)) rest
      = .ok (db.models.map (repoint db.profiles relocate)) := by
  induction rest generalizing done with
  | nil => rw [updateModels, ← hmodels, List.append_nil]
  | cons m rest ih =>
      have hm : m ∈ db.models := by
        rw [← hmodels]
        exact List.mem_append_right _ List.mem_cons_self
      have hnodup : (done ++ m :: rest).Nodup := by
        rw [hmodels]
        exact db.modelIds_nodup.of_map
      have hfree : (repointTarget db.profiles m.row).isSome = true →
          ∀ other ∈ done.map (repoint db.profiles relocate) ++ rest,
            other.row.tenantKey ≠ (repoint db.profiles relocate m).row.tenantKey := by
        intro htarget other hother
        rcases List.mem_append.1 hother with hdone | hrest
        · obtain ⟨old, hold, rfl⟩ := List.mem_map.1 hdone
          refine repoint_key_ne hown relocate hm (hmodels ▸ List.mem_append_left _ hold) ?_
          rintro rfl
          exact (List.nodup_append.1 hnodup).2.2 m hold m List.mem_cons_self rfl
        · exact repoint_key_ne_old hown relocate hm
            (hmodels ▸ List.mem_append_right _ (List.mem_cons_of_mem _ hrest)) htarget
      have hcheck : ((repointTarget db.profiles m.row).isSome
          && (done.map (repoint db.profiles relocate) ++ rest).any fun other =>
            other.row.tenantKey = (repoint db.profiles relocate m).row.tenantKey) = false := by
        cases htarget : (repointTarget db.profiles m.row).isSome with
        | false => rfl
        | true =>
            rw [Bool.true_and, List.any_eq_false]
            intro other hother
            simpa using hfree htarget other hother
      rw [updateModels]
      simp only [hcheck, Bool.false_eq_true, if_false]
      have hgo := ih (done ++ [m]) (by rw [List.append_assoc, List.singleton_append, hmodels])
      rwa [List.map_append, List.map_singleton] at hgo

/-! ## After the update -/

/-- The tuples of `models` after the update. -/
def repointed (db : TenantCatalog τ) (relocate : τ → τ) : List (Tuple τ TenantModel) :=
  db.models.map (repoint db.profiles relocate)

variable {relocate : τ → τ}

/-- Every model has a surviving profile, with the name of its old one. -/
theorem mem_repointed (h : m ∈ db.repointed relocate) :
    ∃ old ∈ db.models, ∃ p s, db.Repointed old.row p s
      ∧ m.row = { old.row with providerProfileId := s.row.id } := by
  obtain ⟨old, hold, rfl⟩ := List.mem_map.1 h
  obtain ⟨p, s, hrepointed⟩ := exists_repointed hold
  exact ⟨old, hold, p, s, hrepointed, hrepointed.repoint_row relocate⟩

theorem mem_deleteProfiles : p ∈ deleteProfiles db.profiles ↔ p ∈ survivors db.profiles := by
  simp only [deleteProfiles, List.mem_filter, List.any_eq_true, decide_eq_true_eq]
  constructor
  · rintro ⟨hp, s, hs, hid⟩
    rwa [profile_eq_of_id hp (firsts_subset hs) hid.symm]
  · intro hp
    exact ⟨firsts_subset hp, p, hp, rfl⟩

theorem checkProfiles_ok {profiles : List (Tuple τ TenantProfile)} (hprofiles : survivors db.profiles ⊆ profiles) :
    checkProfiles profiles (db.repointed relocate) = .ok () := by
  rw [checkProfiles, if_pos]
  rw [List.all_eq_true]
  intro m hm
  obtain ⟨old, -, p, s, hrepointed, hrow⟩ := mem_repointed hm
  rw [List.any_eq_true]
  exact ⟨s, hprofiles hrepointed.survivor, by rw [hrow]; simp⟩

omit [LinearOrder τ] in
theorem checkUnique_ok {κ : Type} [DecidableEq κ] {constraint : String} {keys : List κ} (h : keys.Nodup) :
    checkUnique constraint keys = .ok () := by
  rw [checkUnique, if_pos h]

/-- The catalog that the migration leaves. -/
def migrated (db : TenantCatalog τ) (relocate : τ → τ) : InstanceCatalog where
  profiles := (deleteProfiles db.profiles).map fun p => p.row.instanceWide
  models := (deleteModels (db.repointed relocate)).map fun m => m.row.toModel
  pricing := cascadePricing (deleteModels (db.repointed relocate)) db.pricing

theorem profileNames_nodup_migrated : ((db.migrated relocate).profiles.map ProviderProfile.name).Nodup := by
  rw [migrated, List.map_map]
  refine List.Nodup.map_on (fun p hp p' hp' hname => ?_) (db.profileIds_nodup.of_map.filter _)
  exact firsts_unique db.profileCtids_nodup (mem_deleteProfiles.1 hp) (mem_deleteProfiles.1 hp') hname

theorem publicIds_nodup_migrated (hctids : ((db.repointed relocate).map Tuple.ctid).Nodup) :
    ((db.migrated relocate).models.map fun m => (m.providerProfileId, m.publicId)).Nodup := by
  rw [migrated, List.map_map]
  exact firsts_keys_nodup hctids

/-- The migration completes. -/
theorem instanceWideCatalog_ok (hown : db.OwnProfiles) (hctids : ((db.repointed relocate).map Tuple.ctid).Nodup) :
    instanceWideCatalog relocate db = .ok (db.migrated relocate) := by
  have hupdate : updateModels db.profiles relocate [] db.models = .ok (db.repointed relocate) :=
    updateModels_ok hown relocate [] db.models rfl
  have hfirst : checkProfiles db.profiles (db.repointed relocate) = .ok () :=
    checkProfiles_ok fun p hp => firsts_subset hp
  have hsecond : checkProfiles (deleteProfiles db.profiles) (db.repointed relocate) = .ok () :=
    checkProfiles_ok fun p hp => mem_deleteProfiles.2 hp
  have hnames : checkUnique "provider_profiles_name_key" ((db.migrated relocate).profiles.map ProviderProfile.name)
      = .ok () := checkUnique_ok profileNames_nodup_migrated
  have hpublic : checkUnique "models_provider_profile_id_public_id_key"
      ((db.migrated relocate).models.map fun m => (m.providerProfileId, m.publicId)) = .ok () :=
    checkUnique_ok (publicIds_nodup_migrated hctids)
  rw [migrated] at hnames hpublic
  rw [instanceWideCatalog, hupdate]
  dsimp only [bind, Except.bind]
  rw [hfirst]
  dsimp only
  rw [hsecond]
  dsimp only
  rw [hnames]
  dsimp only
  rw [hpublic]
  rfl

theorem mem_migrated_profiles {q : ProviderProfile} :
    q ∈ (db.migrated relocate).profiles ↔ ∃ s ∈ survivors db.profiles, s.row.instanceWide = q := by
  simp only [migrated, List.mem_map, mem_deleteProfiles]

theorem mem_migrated_models {row : Model} :
    row ∈ (db.migrated relocate).models
      ↔ ∃ m ∈ deleteModels (db.repointed relocate), m.row.toModel = row := by
  simp only [migrated, List.mem_map]

/-- Every model that is left was one before, up to its profile, which is left too. -/
theorem exists_of_mem_migrated_models {row : Model} (h : row ∈ (db.migrated relocate).models) :
    ∃ old ∈ db.models, ∃ p s, db.Repointed old.row p s
      ∧ row = { old.row.toModel with providerProfileId := s.row.id } := by
  obtain ⟨m, hm, rfl⟩ := mem_migrated_models.1 h
  obtain ⟨old, hold, p, s, hrepointed, hrow⟩ := mem_repointed (firsts_subset hm)
  exact ⟨old, hold, p, s, hrepointed, by rw [hrow]⟩

end TenantCatalog

/-! ## The catalog is kept -/

/-- There is a model with the public id under a profile with the name. -/
def TenantCatalog.Offers (db : TenantCatalog τ) (name publicId : String) : Prop :=
  ∃ m ∈ db.models, ∃ p ∈ db.profiles,
    p.row.id = m.row.providerProfileId ∧ p.row.name = name ∧ m.row.publicId = publicId

/-- A profile of this name has a model of this id. -/
def InstanceCatalog.Offers (c : InstanceCatalog) (name publicId : String) : Prop :=
  ∃ m ∈ c.models, ∃ p ∈ c.profiles, p.id = m.providerProfileId ∧ p.name = name ∧ m.publicId = publicId

/-- The tables satisfy the new constraints. -/
structure InstanceCatalog.Valid (c : InstanceCatalog) : Prop where
  profileNames : (c.profiles.map ProviderProfile.name).Nodup
  publicIds : (c.models.map fun m => (m.providerProfileId, m.publicId)).Nodup
  profileIds : (c.profiles.map ProviderProfile.id).Nodup
  modelIds : (c.models.map Model.id).Nodup
  profile_exists : ∀ m ∈ c.models, ∃ p ∈ c.profiles, p.id = m.providerProfileId
  model_exists : ∀ price ∈ c.pricing, ∃ m ∈ c.models, m.id = price.modelId

/-- The tables have no rows but old ones, a model up to its profile. -/
structure InstanceCatalog.Original (c : InstanceCatalog) (db : TenantCatalog τ) : Prop where
  profiles : ∀ p ∈ c.profiles, ∃ old ∈ db.profiles, p = old.row.instanceWide
  models : ∀ m ∈ c.models, ∃ old ∈ db.models,
    m = { old.row.toModel with providerProfileId := m.providerProfileId }
  pricing : ∀ price ∈ c.pricing, price ∈ db.pricing

section Migrated

variable [LinearOrder τ] {db : TenantCatalog τ} {relocate : τ → τ}

open TenantCatalog

theorem TenantCatalog.migrated_valid (hctids : ((db.repointed relocate).map Tuple.ctid).Nodup) :
    (db.migrated relocate).Valid where
  profileNames := profileNames_nodup_migrated
  publicIds := publicIds_nodup_migrated hctids
  profileIds := by
    rw [migrated, List.map_map]
    exact db.profileIds_nodup.sublist (List.filter_sublist.map _)
  modelIds := by
    rw [migrated, List.map_map]
    have hids : (db.repointed relocate).map (fun m => m.row.id) = db.models.map fun m => m.row.id := by
      rw [repointed, List.map_map]
      refine List.map_congr_left fun m hm => ?_
      obtain ⟨p, s, h⟩ := exists_repointed hm
      rw [Function.comp_apply, h.repoint_row]
    have hnodup := db.modelIds_nodup
    rw [← hids] at hnodup
    exact hnodup.sublist (List.filter_sublist.map _)
  profile_exists := by
    intro row hrow
    obtain ⟨old, -, p, s, h, rfl⟩ := exists_of_mem_migrated_models hrow
    exact ⟨s.row.instanceWide, mem_migrated_profiles.2 ⟨s, h.survivor, rfl⟩, rfl⟩
  model_exists := by
    intro price hprice
    obtain ⟨-, hkept⟩ := List.mem_filter.1 hprice
    obtain ⟨m, hm, hid⟩ := List.any_eq_true.1 hkept
    exact ⟨m.row.toModel, mem_migrated_models.2 ⟨m, hm, rfl⟩, of_decide_eq_true hid⟩

theorem TenantCatalog.migrated_original : (db.migrated relocate).Original db where
  profiles := by
    intro q hq
    obtain ⟨s, hs, rfl⟩ := mem_migrated_profiles.1 hq
    exact ⟨s, firsts_subset hs, rfl⟩
  models := by
    intro row hrow
    obtain ⟨old, hold, p, s, -, rfl⟩ := exists_of_mem_migrated_models hrow
    exact ⟨old, hold, rfl⟩
  pricing _ hprice := (List.mem_filter.1 hprice).1

/-- A model that is deleted has another with its public id under the profile with the name. -/
theorem TenantCatalog.migrated_offers_iff (name publicId : String) :
    (db.migrated relocate).Offers name publicId ↔ db.Offers name publicId := by
  constructor
  · rintro ⟨row, hrow, q, hq, hid, rfl, rfl⟩
    obtain ⟨old, hold, p, s, h, rfl⟩ := exists_of_mem_migrated_models hrow
    obtain ⟨s', hs', rfl⟩ := mem_migrated_profiles.1 hq
    have hsame : s' = s := profile_eq_of_id (firsts_subset hs') (firsts_subset h.survivor) hid
    exact ⟨old, hold, p, h.profile, h.owner, by rw [hsame, ← h.name]; rfl, rfl⟩
  · rintro ⟨m, hm, p, hp, hid, rfl, rfl⟩
    obtain ⟨p', s, h⟩ := exists_repointed hm
    obtain rfl : p' = p := profile_eq_of_id h.profile hp (h.owner.trans hid.symm)
    have hmem : repoint db.profiles relocate m ∈ db.repointed relocate := List.mem_map_of_mem hm
    obtain ⟨first, hfirst, hkey⟩ := @exists_mem_firsts _ _ _ _ _
      (fun m => (m.row.providerProfileId, m.row.publicId)) Tuple.ctid _ _ hmem
    obtain ⟨hprofile, hpublic⟩ := Prod.mk.inj hkey
    rw [h.repoint_row] at hprofile hpublic
    exact ⟨first.row.toModel, mem_migrated_models.2 ⟨first, hfirst, rfl⟩, s.row.instanceWide,
      mem_migrated_profiles.2 ⟨s, h.survivor, rfl⟩, hprofile.symm, h.name, hpublic⟩

/-- Wherever the rows and their new versions lie, the migration completes, and keeps the catalog. -/
theorem instanceWideCatalog_preserves {τ : Type} [LinearOrder τ] (db : TenantCatalog τ) (hown : db.OwnProfiles)
    (relocate : τ → τ)
    (hctids : ((db.models.map (repoint db.profiles relocate)).map Tuple.ctid).Nodup) :
    ∃ c, instanceWideCatalog relocate db = .ok c ∧ c.Valid ∧ c.Original db
      ∧ ∀ name publicId, c.Offers name publicId ↔ db.Offers name publicId :=
  ⟨db.migrated relocate, instanceWideCatalog_ok hown hctids, migrated_valid hctids, migrated_original,
    migrated_offers_iff⟩

end Migrated

/-- The profile `openai` of an organization. -/
def tenantOpenAi (id organizationId : Uuid) : TenantProfile :=
  ⟨id, organizationId, "openai", "openai", none, .obj [], true⟩

/-- A chat row of an organization. -/
def tenantModel (id organizationId profileId : Uuid) (publicId : String) : TenantModel :=
  ⟨⟨id, publicId, "openai", profileId, publicId, ["chat"], .obj [], .obj []⟩, organizationId⟩

/-- Two organizations with the profile `openai`, which have one model in common. -/
def clashingTenants : TenantCatalog Nat where
  profiles := [⟨0, tenantOpenAi 11 1⟩, ⟨1, tenantOpenAi 12 2⟩]
  models := [⟨0, tenantModel 21 1 11 "gpt-4o"⟩, ⟨1, tenantModel 22 2 12 "gpt-4o"⟩,
    ⟨2, tenantModel 23 2 12 "gpt-3.5"⟩]
  pricing := [⟨22, Decimal.ofInt32 1, Decimal.ofInt32 2⟩]
  profileCtids_nodup := by decide
  modelCtids_nodup := by decide
  profileIds_nodup := by decide
  modelIds_nodup := by decide
  pricingIds_nodup := by decide
  profileNames_nodup := by decide
  publicIds_nodup := by decide
  profile_exists := by decide
  model_exists := by decide

theorem instanceWideCatalog_preserves_clashing :
    ∃ c, instanceWideCatalog (· + 3) clashingTenants = .ok c ∧ c.Valid ∧ c.Original clashingTenants
      ∧ ∀ name publicId, c.Offers name publicId ↔ clashingTenants.Offers name publicId := by
  refine instanceWideCatalog_preserves clashingTenants ?_ (· + 3) ?_
  · unfold TenantCatalog.OwnProfiles
    decide
  · decide

/-- A valid catalog is one that the router reads. -/
theorem InstanceCatalog.Valid.exists_catalog {c : InstanceCatalog} (h : c.Valid)
    (hbounded : c.models.length < 2 ^ 63) :
    ∃ catalog : Catalog, catalog.models = c.models ∧ catalog.profiles = c.profiles :=
  ⟨{ models := c.models
     profiles := c.profiles
     modelIds_nodup := h.modelIds
     profileIds_nodup := h.profileIds
     profileNames_nodup := h.profileNames
     publicIds_nodup := h.publicIds
     profile_exists := h.profile_exists
     models_bounded := hbounded }, rfl, rfl⟩

end Godwit
