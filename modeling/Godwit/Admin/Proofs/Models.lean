import Godwit.Admin.Models
import Godwit.Admin.Proofs.ProviderProfiles
import Godwit.Api.Proofs.ModelRouter

set_option autoImplicit false

/-! # The catalog that administrators make

Requests on profiles, models and aliases run at the same time, each in several statements that may fail. Whatever
they do to each other, a model stays what it was created as, apart from a public id and capabilities that an update
gives it, and the router resolves a reference to a profile exactly where the tables have what it asks for. -/

namespace Godwit

section

variable {crypto : CredentialCrypto} {texts : CredentialTexts} {masterKey : MasterKey}

/-! ## What a request does -/

/-- The request, where it is one on profiles. -/
def CatalogRequest.onProfiles (r : CatalogRequest) : ProfileRequest :=
  match r.call with
  | .profiles call => ⟨r.claims, call⟩
  | _ => ⟨r.claims, .list⟩

/-- The row that a request has read last, and the id that it has asked for. -/
def rowRead : Option (Uuid × Model) → Step CatalogStore → Option (Uuid × Model)
  | _, ⟨.inr (.get id), .ok row⟩ => some (id, row)
  | read, _ => read

/-- The operations of a request that has read this row. -/
def CatalogRequest.Makes (crypto : CredentialCrypto) (masterKey : MasterKey) (r : CatalogRequest)
    (read : Option (Uuid × Model)) (o : CatalogStore.Op) : Prop :=
  Role.fromStr r.claims.role = some .superAdmin ∧ match o with
    | .inl o => ProfileOpAllowed crypto masterKey r.onProfiles o
    | .inr (.create publicId provider providerProfileId providerModelId capabilities pricing) =>
      ∃ req, r.call = .createModel req ∧ validatePricing req.pricing = .ok () ∧ publicId = req.publicId
        ∧ provider = req.provider ∧ providerProfileId = req.providerProfileId
        ∧ providerModelId = req.providerModelId ∧ capabilities = parseCapabilities req.capabilities
        ∧ pricing = req.pricing
    | .inr (.update id publicId capabilities) =>
      ∃ req current, r.call = .updateModel id req ∧ read = some (id, current)
        ∧ publicId = req.publicId.getD current.publicId
        ∧ capabilities = (req.capabilities.map parseCapabilities).getD current.capabilities
    | .inr _ => True

/-- Each request with what it has read. -/
abbrev catalogRequests (crypto : CredentialCrypto) (masterKey : MasterKey) : Monitor CatalogStore where
  State := CatalogRequest × Option (Uuid × Model)
  next l step := (l.1, rowRead l.2 step)
  accepts l step := l.1.Makes crypto masterKey l.2 step.op

/-- The same for its statements on models. -/
abbrev modelRequests (crypto : CredentialCrypto) (masterKey : MasterKey) : Monitor ModelStore :=
  Signature.Embedding.right.monitor (catalogRequests crypto masterKey)

section Keeps

variable {env : Environment ModelStore} {r : CatalogRequest} {read : Option (Uuid × Model)} {o : ModelOp} {α : Type}

theorem keeps_askModels (hmakes : r.Makes crypto masterKey read (.inr o)) :
    (modelRequests crypto masterKey).Keeps env (r, read) (askModels o) := by
  refine .perform fun answer => ⟨hmakes, ?_⟩
  cases answer with
  | error e => exact .throw
  | ok row => exact .pure

theorem keeps_askModels_bind {f : o.Row → ModelApp α} (hmakes : r.Makes crypto masterKey read (.inr o))
    (hf : ∀ row, (modelRequests crypto masterKey).Keeps env (r, rowRead read ⟨.inr o, .ok row⟩) (f row)) :
    (modelRequests crypto masterKey).Keeps env (r, read) (askModels o >>= f) := by
  rw [askModels, Program.bind_assoc]
  refine .perform fun answer => ⟨hmakes, ?_⟩
  cases answer with
  | error e => exact .throw
  | ok row => exact hf row

/-- What follows the check of the role, for those who pass it. -/
theorem keeps_of_superAdmin {f : Unit → ModelApp α}
    (hf : Role.fromStr r.claims.role = some .superAdmin →
      (modelRequests crypto masterKey).Keeps env (r, read) (f ())) :
    (modelRequests crypto masterKey).Keeps env (r, read) (Program.ofExcept (checkSuperAdmin r.claims) >>= f) := by
  cases hcheck : checkSuperAdmin r.claims with
  | error e => exact .throw
  | ok done => exact hf (role_of_checkSuperAdmin hcheck)

theorem keeps_createModel {req : CreateModelRequest} (hcall : r.call = .createModel req) :
    (modelRequests crypto masterKey).Keeps env (r, read) (createModel r.claims req) := by
  refine keeps_of_superAdmin fun hadmin => ?_
  rw [insertModel]
  cases hpricing : validatePricing req.pricing with
  | error e => exact .throw
  | ok done => exact keeps_askModels ⟨hadmin, req, hcall, hpricing, rfl, rfl, rfl, rfl, rfl, rfl⟩

theorem keeps_updateModel {id : Uuid} {req : UpdateModelRequest} (hcall : r.call = .updateModel id req) :
    (modelRequests crypto masterKey).Keeps env (r, read) (updateModel r.claims id req) := by
  refine keeps_of_superAdmin fun hadmin => ?_
  refine keeps_askModels_bind ⟨hadmin, trivial⟩ fun current => ?_
  exact keeps_askModels ⟨hadmin, req, current, hcall, rfl, rfl, rfl⟩

/-- A handler of one statement that is neither an insertion nor an update of a model. -/
theorem keeps_statement (hplain : ∀ read, Role.fromStr r.claims.role = some .superAdmin →
    r.Makes crypto masterKey read (.inr o)) :
    (modelRequests crypto masterKey).Keeps env (r, read)
      (Program.ofExcept (checkSuperAdmin r.claims) >>= fun _ => askModels o) :=
  keeps_of_superAdmin fun hadmin => keeps_askModels (hplain read hadmin)

end Keeps

theorem CatalogRequest.serve_keeps {env : Environment CatalogStore} (r : CatalogRequest) :
    (catalogRequests crypto masterKey).Keeps env (r, none) (r.serve crypto masterKey) := by
  have hright : ∀ {α : Type} {p : ModelApp α} (response : α → CatalogResponse),
      (∀ env, (modelRequests crypto masterKey).Keeps env (r, none) p) →
      (catalogRequests crypto masterKey).Keeps env (r, none) ((catalogRespond p response).embed .right) :=
    fun response h => .embed (Monitor.Keeps.bind (h _) fun _ _ => .pure)
  rw [CatalogRequest.serve]
  cases hcall : r.call with
  | profiles call =>
      have hserve : (ProfileRequest.serve crypto masterKey ⟨r.claims, call⟩).Only
          (ProfileOpAllowed crypto masterKey ⟨r.claims, call⟩) := ProfileRequest.serve_only _
      have honly := hserve.bind (f := fun response => .pure (CatalogResponse.profiles response)) fun _ => trivial
      refine .embed (.mono (.quiet honly fun step hstep => ⟨⟨hstep.1, ?_⟩, ?_⟩) (fun _ _ _ => trivial)
        fun _ _ _ => trivial)
      · show ProfileOpAllowed crypto masterKey r.onProfiles step.op
        rw [CatalogRequest.onProfiles, hcall]
        exact hstep
      · rfl
  | listModels => exact hright _ fun _ => keeps_statement fun _ hadmin => ⟨hadmin, trivial⟩
  | getModel id => exact hright _ fun _ => keeps_statement fun _ hadmin => ⟨hadmin, trivial⟩
  | createModel req => exact hright _ fun _ => keeps_createModel hcall
  | updateModel id req => exact hright _ fun _ => keeps_updateModel hcall
  | deleteModel id => exact hright _ fun _ => keeps_statement fun _ hadmin => ⟨hadmin, trivial⟩
  | listAliases => exact hright _ fun _ => keeps_statement fun _ hadmin => ⟨hadmin, trivial⟩
  | createAlias req =>
      refine hright _ fun _ => keeps_of_superAdmin fun hadmin => ?_
      exact keeps_askModels_bind ⟨hadmin, trivial⟩ fun _ => keeps_askModels ⟨hadmin, trivial⟩
  | deleteAlias id => exact hright _ fun _ => keeps_statement fun _ hadmin => ⟨hadmin, trivial⟩

/-! ## Histories -/

/-- The steps of the requests, in the order in which they were taken. -/
abbrev CatalogHistory := List (Nat × Step CatalogStore)

/-- The tables after a history. -/
abbrev catalogAfter (s : CatalogWorld) (tr : CatalogHistory) : CatalogWorld := catalogWorld.after s (sharedSteps tr)

/-- The requests are served side by side in this order. -/
abbrev CatalogInterleaved (crypto : CredentialCrypto) (masterKey : MasterKey) (requests : Nat → CatalogRequest)
    (s : CatalogWorld) (tr : CatalogHistory) : Prop :=
  Interleaved catalogWorld anyAnswer (CatalogRequest.serve crypto masterKey) requests s tr

/-- What a step makes of the keys of the profiles. -/
def catalogKeysAfterStep (requests : Nat → CatalogRequest) (keys : Uuid → Option String) :
    Nat × Step CatalogStore → Uuid → Option String
  | (i, ⟨.inl o, answer⟩) => keysAfterStep (fun n => (requests n).onProfiles) keys (i, ⟨o, answer⟩)
  | _ => keys

/-- The key of each profile after a history. -/
def catalogKeysAfter (requests : Nat → CatalogRequest) (keys : Uuid → Option String) (tr : CatalogHistory) :
    Uuid → Option String :=
  tr.foldl (catalogKeysAfterStep requests) keys

/-- The row was inserted for a request to create it. -/
def Created (requests : Nat → CatalogRequest) (tr : CatalogHistory) (row : Model) : Prop :=
  ∃ i req, (requests i).call = .createModel req
    ∧ (i, (⟨.inr (.create req.publicId req.provider req.providerProfileId req.providerModelId
        (parseCapabilities req.capabilities) req.pricing), .ok row⟩ : Step CatalogStore)) ∈ tr
    ∧ ModelRepository.create row.id req.publicId req.provider req.providerProfileId req.providerModelId
        req.capabilities req.pricing = .ok row

/-- A row of this id was changed for this request. -/
def Updated (requests : Nat → CatalogRequest) (tr : CatalogHistory) (id : Uuid) (req : UpdateModelRequest) : Prop :=
  ∃ i publicId capabilities row, (requests i).call = .updateModel id req
    ∧ (i, (⟨.inr (.update id publicId capabilities), .ok row⟩ : Step CatalogStore)) ∈ tr

/-- A model is as it was created, with a public id and capabilities that were given to it then or later. -/
structure Configured (requests : Nat → CatalogRequest) (tr : CatalogHistory) (m : Model) : Prop where
  created : ∃ row, Created requests tr row ∧ m = { row with publicId := m.publicId, capabilities := m.capabilities }
  named : (∃ row, Created requests tr row ∧ row.id = m.id ∧ row.publicId = m.publicId)
    ∨ ∃ req, Updated requests tr m.id req ∧ req.publicId = some m.publicId
  capable : (∃ row, Created requests tr row ∧ row.id = m.id ∧ row.capabilities = m.capabilities)
    ∨ ∃ req, Updated requests tr m.id req ∧ req.capabilities.map parseCapabilities = some m.capabilities

variable {requests : Nat → CatalogRequest} {tr more : CatalogHistory} {m row : Model}

theorem Created.later (h : Created requests tr row) : Created requests (tr ++ more) row := by
  obtain ⟨i, req, hcall, hmem, hrow⟩ := h
  exact ⟨i, req, hcall, List.mem_append_left _ hmem, hrow⟩

theorem Updated.later {id : Uuid} {req : UpdateModelRequest} (h : Updated requests tr id req) :
    Updated requests (tr ++ more) id req := by
  obtain ⟨i, publicId, capabilities, row, hcall, hmem⟩ := h
  exact ⟨i, publicId, capabilities, row, hcall, List.mem_append_left _ hmem⟩

theorem Configured.later (h : Configured requests tr m) : Configured requests (tr ++ more) m := by
  obtain ⟨⟨row, hrow, hm⟩, hnamed, hcapable⟩ := h
  refine ⟨⟨row, hrow.later, hm⟩, ?_, ?_⟩
  · rcases hnamed with ⟨row, hrow, hid⟩ | ⟨req, hreq, hname⟩
    · exact .inl ⟨row, hrow.later, hid⟩
    · exact .inr ⟨req, hreq.later, hname⟩
  · rcases hcapable with ⟨row, hrow, hid⟩ | ⟨req, hreq, hname⟩
    · exact .inl ⟨row, hrow.later, hid⟩
    · exact .inr ⟨req, hreq.later, hname⟩

theorem Created.configured (h : Created requests tr row) : Configured requests tr row :=
  ⟨⟨row, h, rfl⟩, .inl ⟨row, h, rfl, rfl⟩, .inl ⟨row, h, rfl, rfl⟩⟩

/-- A row that is changed keeps what it was created with; what the update does not set was read. -/
theorem Configured.updated {id : Uuid} {req : UpdateModelRequest} {old current : Model}
    (hold : Configured requests tr old) (hcurrent : Configured requests tr current) (hid : old.id = id)
    (hread : current.id = id) (hupdated : Updated requests tr id req) :
    Configured requests tr
      { old with
        publicId := req.publicId.getD current.publicId
        capabilities := (req.capabilities.map parseCapabilities).getD current.capabilities } := by
  subst hid
  obtain ⟨row, hrow, hm⟩ := hold.created
  refine ⟨⟨row, hrow, ?_⟩, ?_, ?_⟩
  · rw [hm]
  · cases hpublic : req.publicId with
    | some publicId => exact .inr ⟨req, hupdated, hpublic⟩
    | none =>
        have hnamed := hcurrent.named
        rw [hread] at hnamed
        exact hnamed
  · cases hcaps : req.capabilities with
    | some capabilities => exact .inr ⟨req, hupdated, by rw [hcaps]; rfl⟩
    | none =>
        have hcapable := hcurrent.capable
        rw [hread] at hcapable
        exact hcapable

theorem parseCapabilities_ne_nil (text : String) : parseCapabilities text ≠ [] := by
  rw [parseCapabilities]
  split_ifs with hempty
  · exact List.cons_ne_nil _ _
  · rwa [List.isEmpty_iff] at hempty

/-- A model has the prices of its creation, which were accepted. -/
theorem Configured.priced (h : Configured requests tr m) : validatePricing m.pricing = .ok () := by
  obtain ⟨row, ⟨i, req, hcall, hmem, hrow⟩, hm⟩ := h.created
  rw [hm]
  exact (ModelRepository.create_accepted hrow).1

theorem Created.capabilities_ne_nil (h : Created requests tr row) : row.capabilities ≠ [] := by
  obtain ⟨i, req, hcall, hmem, hrow⟩ := h
  unfold ModelRepository.create at hrow
  cases hpricing : validatePricing req.pricing with
  | error e =>
      rw [hpricing] at hrow
      cases hrow
  | ok done =>
      rw [hpricing] at hrow
      rw [← congrArg Model.capabilities (Except.ok.inj hrow)]
      exact parseCapabilities_ne_nil _

theorem Configured.capabilities_ne_nil (h : Configured requests tr m) : m.capabilities ≠ [] := by
  rcases h.capable with ⟨row, hrow, -, hcapabilities⟩ | ⟨req, -, hcapabilities⟩
  · rw [← hcapabilities]
    exact hrow.capabilities_ne_nil
  · obtain ⟨text, -, hparse⟩ := Option.map_eq_some_iff.1 hcapabilities
    rw [← hparse]
    exact parseCapabilities_ne_nil text

/-! ## The tables -/

/-- What holds of the tables at every moment. -/
structure CatalogSound (crypto : CredentialCrypto) (masterKey : MasterKey) (requests : Nat → CatalogRequest)
    (keys : Uuid → Option String) (tr : CatalogHistory) (s : CatalogWorld) : Prop where
  stored : KeysStored crypto masterKey keys s.toProfileWorld
  names : (s.profiles.rows.map fun row => row.name).Nodup
  accepted : ∀ m ∈ s.models, s.AcceptsModel m
  targets : ∀ row ∈ s.aliases, (s.models.find? row.targetModelId).isSome = true
  configured : ∀ m ∈ s.models, Configured requests tr m

variable {keys : Uuid → Option String} {s : CatalogWorld}

/-- A table of rows that were accepted, or of which one is accepted now. -/
theorem CatalogWorld.acceptsModel_put {s' : CatalogWorld} (row : Model) (hprofiles : s'.profiles = s.profiles)
    (hall : ∀ m ∈ s'.models, s.AcceptsModel m) (hsub : ∀ m ∈ s'.models, m ∈ s.models ∨ m = row) :
    ∀ m ∈ s'.models, s'.AcceptsModel m := by
  intro m hm
  obtain ⟨hprovider, hcapabilities, hprofile, hunique⟩ := hall m hm
  refine ⟨hprovider, hcapabilities, hprofiles ▸ hprofile, fun other hother hsame hpublic => ?_⟩
  rcases hsub other hother with hold | rfl
  · exact hunique other hold hsame hpublic
  · rcases hsub m hm with hold | rfl
    · exact ((hall other hother).unique m hold hsame.symm hpublic.symm).symm
    · rfl

section Profiles

variable {s : ProfileWorld} {o : ProfileOp} {answer : o.Answer}

/-- Profiles stay. -/
theorem profile_kept (haccepts : s.answers o answer) {id : Uuid} (h : (s.profiles.find? id).isSome = true) :
    ((s.next ⟨o, answer⟩).profiles.find? id).isSome = true := by
  cases o with
  | drawNonce => exact h
  | list => exact h
  | get id' => exact h
  | create name protocol baseUrl allowWildcard =>
      cases answer with
      | error e => exact h
      | ok row => exact Table.find?_insert_isSome h
  | update id' baseUrl allowWildcard enabled =>
      cases answer with
      | error e => exact h
      | ok row => exact Table.find?_replace_isSome h
  | setAuth id' auth =>
      cases answer with
      | error e => exact h
      | ok row => exact Table.find?_replace_isSome h

/-- A row that is changed, but not in its name, leaves the names as they are. -/
theorem map_name_replace {t : ProviderProfileTable} {id : Uuid} {row old : ProviderProfileRow}
    (hold : t.find? id = some old) (hid : row.id = old.id) (hname : row.name = old.name) :
    ((t.replace row).rows.map fun row => row.name) = t.rows.map fun row => row.name := by
  rw [Table.replace, List.map_map]
  refine List.map_congr_left fun other hother => ?_
  by_cases hkey : other.id = row.id
  · obtain rfl := Table.eq_of_key (t := t) hother (Table.find?_eq_some_iff.1 hold).1 (hkey.trans hid)
    simp [hkey, hname]
  · simp [hkey]

/-- Profiles keep their names, and a new one has another. -/
theorem names_kept (haccepts : s.answers o answer) (h : (s.profiles.rows.map fun row => row.name).Nodup) :
    ((s.next ⟨o, answer⟩).profiles.rows.map fun row => row.name).Nodup := by
  have hreplace : ∀ {id : Uuid} {row old : ProviderProfileRow}, s.profiles.find? id = some old → row.id = old.id →
      row.name = old.name → ((s.profiles.replace row).rows.map fun row => row.name).Nodup := by
    intro id row old hold hid hname
    rw [map_name_replace hold hid hname]
    exact h
  cases o with
  | drawNonce => exact h
  | list => exact h
  | get id => exact h
  | create name protocol baseUrl allowWildcard =>
      cases answer with
      | error e => exact h
      | ok row =>
          obtain ⟨hfresh, hname, hrow⟩ := haccepts
          show (((s.profiles.insert row).rows).map fun row => row.name).Nodup
          rw [Table.rows_insert_of_fresh hfresh, List.map_append, List.map_singleton]
          refine h.append (List.nodup_singleton _) ?_
          rw [List.disjoint_singleton]
          intro hmem
          obtain ⟨other, hother, heq⟩ := List.mem_map.1 hmem
          refine hname other hother (heq.trans ?_)
          rw [hrow]
  | update id baseUrl allowWildcard enabled =>
      cases answer with
      | error e => exact h
      | ok row =>
          obtain ⟨old, hold, hrow⟩ := haccepts
          exact hreplace hold (by rw [hrow]) (by rw [hrow])
  | setAuth id auth =>
      cases answer with
      | error e => exact h
      | ok row =>
          obtain ⟨old, hold, hrow⟩ := haccepts
          exact hreplace hold (by rw [hrow]) (by rw [hrow])

end Profiles

namespace CatalogSound

variable {i : Nat} {read : Option (Uuid × Model)}

/-- A step on profiles. -/
theorem kept_profiles (h : CatalogSound crypto masterKey requests keys tr s) {o : ProfileOp} {answer : o.Answer}
    (haccepts : s.toProfileWorld.answers o answer)
    (hallowed : ProfileOpAllowed crypto masterKey (requests i).onProfiles o) :
    CatalogSound crypto masterKey requests (catalogKeysAfterStep requests keys (i, ⟨.inl o, answer⟩))
      (tr ++ [(i, ⟨.inl o, answer⟩)]) (s.next ⟨.inl o, answer⟩) where
  stored := by
    have hkept : KeysStored crypto masterKey (keysAfterStep (fun n => (requests n).onProfiles) keys (i, ⟨o, answer⟩))
        (s.toProfileWorld.next ⟨o, answer⟩) := h.stored.kept haccepts hallowed
    exact hkept
  names := names_kept haccepts h.names
  accepted m hm := by
    obtain ⟨hprovider, hcapabilities, hprofile, hunique⟩ := h.accepted m hm
    exact ⟨hprovider, hcapabilities, profile_kept haccepts hprofile, hunique⟩
  targets := h.targets
  configured m hm := (h.configured m hm).later

/-- A step that adds or changes a model. -/
theorem kept_models (h : CatalogSound crypto masterKey requests keys tr s) {entry : Nat × Step CatalogStore}
    {row : Model} {models : Table Model.id} (hsub : ∀ m ∈ models, m ∈ s.models ∨ m = row)
    (hkeep : ∀ id, (s.models.find? id).isSome = true → (models.find? id).isSome = true) (haccepts : s.AcceptsModel row)
    (hconfigured : Configured requests (tr ++ [entry]) row) :
    CatalogSound crypto masterKey requests keys (tr ++ [entry]) { s with models } where
  stored := h.stored
  names := h.names
  accepted := by
    refine CatalogWorld.acceptsModel_put (s := s) row rfl (fun m hm => ?_) hsub
    rcases hsub m hm with hold | rfl
    · exact h.accepted m hold
    · exact haccepts
  targets other hother := hkeep _ (h.targets other hother)
  configured m hm := by
    rcases hsub m hm with hold | rfl
    · exact (h.configured m hold).later
    · exact hconfigured

/-- A step that changes aliases only, if anything. -/
theorem kept_aliases (h : CatalogSound crypto masterKey requests keys tr s) {entry : Nat × Step CatalogStore}
    {aliases : Table ModelAlias.id} (htargets : ∀ row ∈ aliases, (s.models.find? row.targetModelId).isSome = true) :
    CatalogSound crypto masterKey requests keys (tr ++ [entry]) { s with aliases } where
  stored := h.stored
  names := h.names
  accepted := CatalogWorld.acceptsModel_put (s := s) default rfl h.accepted fun _ => .inl
  targets := htargets
  configured m hm := (h.configured m hm).later

/-- The aliases of a model go with it. -/
theorem kept_delete (h : CatalogSound crypto masterKey requests keys tr s) {entry : Nat × Step CatalogStore}
    (id : Uuid) :
    CatalogSound crypto masterKey requests keys (tr ++ [entry])
      { s with
        models := s.models.delete fun row => row.id = id
        aliases := s.aliases.delete fun row => row.targetModelId = id } where
  stored := h.stored
  names := h.names
  accepted := CatalogWorld.acceptsModel_put (s := s) default rfl (Table.forall_delete h.accepted)
    fun m hm => .inl (Table.mem_delete.1 hm).1
  targets row hrow := by
    obtain ⟨hmem, hother⟩ := Table.mem_delete.1 hrow
    obtain ⟨target, hmodel, hid⟩ := Table.find?_isSome_iff.1 (h.targets row hmem)
    refine Table.find?_isSome_iff.2 ⟨target, Table.mem_delete.2 ⟨hmodel, ?_⟩, hid⟩
    rw [hid]
    exact hother
  configured m hm := (h.configured m (Table.mem_delete.1 hm).1).later

/-- What a request may do keeps the tables sound, when what it has read was configured. -/
theorem kept (h : CatalogSound crypto masterKey requests keys tr s) {step : Step CatalogStore}
    (haccepts : s.answers step.op step.answer) (hmakes : (requests i).Makes crypto masterKey read step.op)
    (hread : ∀ id current, read = some (id, current) → current.id = id ∧ Configured requests tr current) :
    CatalogSound crypto masterKey requests (catalogKeysAfterStep requests keys (i, step)) (tr ++ [(i, step)])
      (s.next step) := by
  obtain ⟨o | o, answer⟩ := step
  · exact h.kept_profiles haccepts hmakes.2
  · cases o with
    | list => exact h.kept_aliases h.targets
    | get id => exact h.kept_aliases h.targets
    | listAliases => exact h.kept_aliases h.targets
    | create publicId provider providerProfileId providerModelId capabilities pricing =>
        cases answer with
        | error e => exact h.kept_aliases h.targets
        | ok row =>
            obtain ⟨-, hrow, heq⟩ := haccepts
            obtain ⟨-, req, hcall, hpricing, rfl, rfl, rfl, rfl, rfl, rfl⟩ := hmakes
            have hcreated : Created requests (tr ++ [(i, ⟨.inr (.create req.publicId req.provider
                req.providerProfileId req.providerModelId (parseCapabilities req.capabilities) req.pricing),
                .ok row⟩)]) row := by
              refine ⟨i, req, hcall, List.mem_append_right _ List.mem_cons_self, ?_⟩
              rw [ModelRepository.create, hpricing, heq]
              rfl
            exact h.kept_models (fun m hm => Table.mem_of_insert hm) (fun id hid => Table.find?_insert_isSome hid) hrow
              hcreated.configured
    | update id publicId capabilities =>
        cases answer with
        | error e => exact h.kept_aliases h.targets
        | ok row =>
            obtain ⟨hrow, old, hold, hchanged⟩ := haccepts
            obtain ⟨-, req, current, hcall, hcurrent, hpublic, hcapabilities⟩ := hmakes
            obtain ⟨hid, hconfigured⟩ := hread id current hcurrent
            obtain ⟨hmem, hkey⟩ := Table.find?_eq_some_iff.1 hold
            have hupdated : Updated requests (tr ++ [(i, ⟨.inr (.update id publicId capabilities), .ok row⟩)]) id req :=
              ⟨i, publicId, capabilities, row, hcall, List.mem_append_right tr List.mem_cons_self⟩
            have hnow := (h.configured old hmem).later.updated hconfigured.later hkey hid hupdated
            rw [← hpublic, ← hcapabilities, ← hchanged] at hnow
            refine h.kept_models (fun m hm => ?_) (fun id' hid' => Table.find?_replace_isSome hid') hrow hnow
            rcases Table.mem_replace.1 hm with ⟨hm, -⟩ | ⟨rfl, -⟩
            · exact .inl hm
            · exact .inr rfl
    | delete id =>
        cases answer with
        | error e => exact h.kept_aliases h.targets
        | ok done => exact h.kept_delete id
    | createAlias aliasName targetModelId =>
        cases answer with
        | error e => exact h.kept_aliases h.targets
        | ok row =>
            obtain ⟨-, -, htarget, hrow⟩ := haccepts
            refine h.kept_aliases (Table.forall_insert h.targets ?_)
            rw [hrow]
            exact htarget
    | deleteAlias id =>
        cases answer with
        | error e => exact h.kept_aliases h.targets
        | ok done => exact h.kept_aliases (Table.forall_delete h.targets)

end CatalogSound

/-- What has been read in a step was in the table. -/
theorem configured_of_read {read : Option (Uuid × Model)} {step : Step CatalogStore} {entry : Nat × Step CatalogStore}
    (hsound : CatalogSound crypto masterKey requests keys tr s) (haccepts : s.answers step.op step.answer)
    (hread : ∀ id current, read = some (id, current) → current.id = id ∧ Configured requests tr current) :
    ∀ id current, rowRead read step = some (id, current) →
      current.id = id ∧ Configured requests (tr ++ [entry]) current := by
  have hlater : ∀ id current, read = some (id, current) →
      current.id = id ∧ Configured requests (tr ++ [entry]) current :=
    fun id current h => ⟨(hread id current h).1, (hread id current h).2.later⟩
  obtain ⟨o | o, answer⟩ := step
  · exact hlater
  · cases o with
    | get id =>
        cases answer with
        | error e => exact hlater
        | ok row =>
            intro id' current heq
            obtain ⟨rfl, rfl⟩ := Prod.mk.inj (Option.some.inj heq)
            obtain ⟨hmem, hkey⟩ := Table.find?_eq_some_iff.1 (Eq.symm haccepts)
            exact ⟨hkey, (hsound.configured _ hmem).later⟩
    | _ => exact hlater

/-- What each request has read after a history. -/
abbrev readAfter (crypto : CredentialCrypto) (masterKey : MasterKey) (requests : Nat → CatalogRequest)
    (tr : CatalogHistory)
    (i : Nat) : CatalogRequest × Option (Uuid × Model) :=
  Interleaved.locals (L := catalogRequests crypto masterKey) (fun r => (r, none)) requests tr i

theorem readAfter_fst (i : Nat) : (readAfter crypto masterKey requests tr i).1 = requests i := by
  have hkept : ∀ (l : CatalogRequest × Option (Uuid × Model)) (steps : List (Step CatalogStore)),
      ((catalogRequests crypto masterKey).after l steps).1 = l.1 := by
    intro l steps
    induction steps generalizing l with
    | nil => rfl
    | cons step steps ih => exact ih _
  exact hkept _ _

/-- No model and no alias is there yet. -/
structure CatalogStart (crypto : CredentialCrypto) (masterKey : MasterKey) (keys : Uuid → Option String)
    (s : CatalogWorld) : Prop where
  stored : KeysStored crypto masterKey keys s.toProfileWorld
  names : (s.profiles.rows.map fun row => row.name).Nodup
  models : ∀ m, m ∉ s.models
  aliases : ∀ row, row ∉ s.aliases

theorem CatalogStart.sound (h : CatalogStart crypto masterKey keys s) :
    CatalogSound crypto masterKey requests keys [] s where
  stored := h.stored
  names := h.names
  accepted m hm := absurd hm (h.models m)
  targets row hrow := absurd hrow (h.aliases row)
  configured m hm := absurd hm (h.models m)

/-- A step is one that its request makes, with what this has read before. -/
theorem makes_of_history {i : Nat} {step : Step CatalogStore}
    (h : CatalogInterleaved crypto masterKey requests s (tr ++ (i, step) :: more)) :
    (requests i).Makes crypto masterKey (readAfter crypto masterKey requests tr i).2 step.op := by
  have hmakes : (readAfter crypto masterKey requests tr i).1.Makes crypto masterKey
      (readAfter crypto masterKey requests tr i).2 step.op :=
    h.locally_accepts fun r steps out hrun => (r.serve_keeps steps out hrun).1
  rwa [readAfter_fst] at hmakes

/-- The tables are sound at every moment, and what requests have read was configured. -/
theorem catalogSound_of_history (hstart : CatalogStart crypto masterKey keys s)
    (h : CatalogInterleaved crypto masterKey requests s tr) :
    CatalogSound crypto masterKey requests (catalogKeysAfter requests keys tr) tr (catalogAfter s tr)
      ∧ ∀ i id current, (readAfter crypto masterKey requests tr i).2 = some (id, current) →
        current.id = id ∧ Configured requests tr current := by
  induction tr using List.reverseRecOn with
  | nil => exact ⟨hstart.sound, fun i id current heq => by cases heq⟩
  | append_singleton earlier entry ih =>
      obtain ⟨i, step⟩ := entry
      obtain ⟨hsound, hread⟩ := ih h.of_append
      rw [catalogAfter, after_sharedSteps_snoc, catalogKeysAfter, List.foldl_append]
      refine ⟨hsound.kept h.accepts (makes_of_history h) (hread i), fun j id current hcurrent => ?_⟩
      rw [readAfter, Interleaved.locals_snoc] at hcurrent
      by_cases hj : j = i
      · subst hj
        rw [Function.update_self] at hcurrent
        exact configured_of_read hsound h.accepts (hread j) id current hcurrent
      · rw [Function.update_of_ne hj] at hcurrent
        obtain ⟨hid, hconfigured⟩ := hread j id current hcurrent
        exact ⟨hid, hconfigured.later⟩

theorem role_of_catalogHistory (h : CatalogInterleaved crypto masterKey requests s tr) {i : Nat}
    {step : Step CatalogStore}
    (hmem : (i, step) ∈ tr) : Role.fromStr (requests i).claims.role = some .superAdmin := by
  obtain ⟨before, after, rfl⟩ := List.append_of_mem hmem
  exact (makes_of_history h).1

/-! ## The catalog that the router reads -/

/-- The rows that the queries of the router select from. -/
structure ReadsCatalog (c : Catalog) (s : CatalogWorld) : Prop where
  models : ∀ m, m ∈ c.models ↔ m ∈ s.models
  profiles : ∀ p, p ∈ c.profiles ↔ ∃ row ∈ s.profiles, row.toProviderProfile = p

theorem CatalogSound.readable (h : CatalogSound crypto masterKey requests keys tr s)
    (hbound : s.models.rows.length < 2 ^ 63) : ∃ c, ReadsCatalog c s := by
  have hids : ((s.profiles.rows.map fun row => row.toProviderProfile).map ProviderProfile.id).Nodup := by
    rw [List.map_map]
    exact s.profiles.distinct
  have hnames : ((s.profiles.rows.map fun row => row.toProviderProfile).map ProviderProfile.name).Nodup := by
    rw [List.map_map]
    exact h.names
  have hpublic : (s.models.rows.map fun m => (m.providerProfileId, m.publicId)).Nodup := by
    refine List.Nodup.map_on (fun m hm other hother heq => ?_) s.models.distinct.of_map
    obtain ⟨hprofile, hname⟩ := Prod.mk.inj heq
    exact Table.eq_of_key (t := s.models) hm hother ((h.accepted other hother).unique m hm hprofile hname)
  have hprofile : ∀ m ∈ s.models.rows,
      ∃ p ∈ s.profiles.rows.map fun row => row.toProviderProfile, p.id = m.providerProfileId := by
    intro m hm
    obtain ⟨row, hmem, hid⟩ := Table.find?_isSome_iff.1 (h.accepted m hm).profile
    exact ⟨row.toProviderProfile, List.mem_map_of_mem hmem, hid⟩
  exact
    ⟨{ models := s.models.rows
       profiles := s.profiles.rows.map fun row => row.toProviderProfile
       modelIds_nodup := s.models.distinct
       profileIds_nodup := hids
       profileNames_nodup := hnames
       publicIds_nodup := hpublic
       profile_exists := hprofile
       models_bounded := hbound }, fun m => Iff.rfl, fun p => List.mem_map⟩

theorem splitOnce_qualified {name suffix : String} (h : '/' ∉ name.toList) :
    splitOnce (name ++ "/" ++ suffix) = some (name, suffix) := by
  have hname : ∀ c ∈ name.toList, decide (c ≠ '/') = true := by
    intro c hc
    exact decide_eq_true fun heq => h (heq ▸ hc)
  have htext : (name ++ "/" ++ suffix).toList = name.toList ++ '/' :: suffix.toList := by
    simp [String.toList_append]
  rw [splitOnce, htext, List.span_eq_takeWhile_dropWhile, List.takeWhile_append_of_pos hname,
    List.dropWhile_append_of_pos hname]
  simp

variable {r : DbModelRouter} {lb : LoadBalancer} {ref name suffix : String} {capability : Capability}
  {out : ResolvedModel}

/-- A reference is resolved when a row is chosen that can do what is asked, and its profile can be used. -/
theorem DbModelRouter.resolve_eq_ok_iff : (r.resolve lb ref capability).1 = .ok out ↔
    ∃ m p credentials, (r.chooseRow lb ref capability).1 = .ok (m, p) ∧ m.hasCapability capability = true
      ∧ r.resolveCredentials p = .ok credentials ∧ p.protocol ∈ r.registry
      ∧ out = ⟨m, p, credentials, p.protocol, if m.id = Uuid.nil then none else some m.id⟩ := by
  rcases hchoose : r.chooseRow lb ref capability with ⟨chosen, lb'⟩
  cases chosen with
  | error e => simp [DbModelRouter.resolve, hchoose]
  | ok mp =>
      obtain ⟨m, p⟩ := mp
      cases hcapable : m.hasCapability capability with
      | false => simp [DbModelRouter.resolve, hchoose, hcapable]
      | true =>
          cases hcredentials : r.resolveCredentials p with
          | error e => simp [DbModelRouter.resolve, hchoose, hcapable, hcredentials]
          | ok credentials =>
              by_cases hregistry : p.protocol ∈ r.registry
              · have hresolve : (r.resolve lb ref capability).1 = .ok ⟨m, p, credentials, p.protocol,
                    if m.id = Uuid.nil then none else some m.id⟩ := by
                  simp [DbModelRouter.resolve, hchoose, hcapable, hcredentials, hregistry]
                rw [hresolve, Except.ok.injEq]
                constructor
                · rintro rfl
                  exact ⟨m, p, credentials, rfl, hcapable, hcredentials, hregistry, rfl⟩
                · rintro ⟨m', p', credentials', hrow, -, hcredentials', -, rfl⟩
                  obtain ⟨rfl, rfl⟩ := Prod.mk.inj (Except.ok.inj hrow)
                  rw [hcredentials] at hcredentials'
                  obtain rfl := Except.ok.inj hcredentials'
                  rfl
              · simp [DbModelRouter.resolve, hchoose, hcapable, hcredentials, hregistry]

/-- The row that a reference to this profile stands for: the one of its public id, or one that is made up. -/
inductive StandsFor (s : CatalogWorld) (profile : ProviderProfileRow) (ref suffix : String) (capability : Capability) :
    Model → Prop
  | listed {m : Model} (hmem : m ∈ s.models) (hprofile : m.providerProfileId = profile.id)
      (hpublic : m.publicId = suffix) (hcapable : m.hasCapability capability = true) :
      StandsFor s profile ref suffix capability m
  | wildcard (hnone : ∀ m ∈ s.models, ¬ (m.providerProfileId = profile.id ∧ m.publicId = suffix))
      (hwild : profile.allowWildcard = true) :
      StandsFor s profile ref suffix capability (wildcardModel ref suffix profile.toProviderProfile capability)

/-- The profile of this name is enabled and complete, and `out` is what its row is called with. -/
def Routed (s : CatalogWorld) (keys : Uuid → Option String) (registry : List String) (name suffix : String)
    (capability : Capability) (out : ResolvedModel) : Prop :=
  ∃ profile ∈ s.profiles, ∃ baseUrl m, profile.name = name ∧ profile.enabled = true
    ∧ profile.baseUrl = some baseUrl ∧ profile.protocol ∈ registry
    ∧ StandsFor s profile (name ++ "/" ++ suffix) suffix capability m
    ∧ out = ⟨m, profile.toProviderProfile, ⟨baseUrl, keys profile.id⟩, profile.protocol,
        if m.id = Uuid.nil then none else some m.id⟩

/-- Credentials are never the reason that a profile with a base URL is not resolved. -/
theorem resolve_qualified_iff (hstored : KeysStored crypto masterKey keys s.toProfileWorld)
    (hvault : r.vault = credentialVault crypto texts masterKey) (hreads : ReadsCatalog r.catalog s)
    (hname : '/' ∉ name.toList) :
    (r.resolve lb (name ++ "/" ++ suffix) capability).1 = .ok out
      ↔ Routed s keys r.registry name suffix capability out := by
  have hchoose : (r.chooseRow lb (name ++ "/" ++ suffix) capability).1
      = r.qualifiedRow (name ++ "/" ++ suffix) name suffix capability := by
    rw [DbModelRouter.chooseRow, splitOnce_qualified hname]
  rw [DbModelRouter.resolve_eq_ok_iff, hchoose]
  constructor
  · rintro ⟨m, p, credentials, hrow, hcapable, hcredentials, hregistry, rfl⟩
    obtain ⟨hp, hpname, henabled, hcase⟩ := r.qualifiedRow_eq_ok.1 hrow
    obtain ⟨profile, hprofile, rfl⟩ := (hreads.profiles p).1 hp
    cases hbase : profile.baseUrl with
    | none =>
        rw [DbModelRouter.resolveCredentials, hbase] at hcredentials
        cases hcredentials
    | some baseUrl =>
        rw [resolveCredentials_of_holds hvault hbase (hstored.held profile hprofile)] at hcredentials
        obtain rfl := Except.ok.inj hcredentials
        refine ⟨profile, hprofile, baseUrl, m, hpname, henabled, hbase, hregistry, ?_, rfl⟩
        rcases hcase with ⟨hm, hmprofile, hpublic⟩ | ⟨hnone, hwild, rfl⟩
        · exact .listed ((hreads.models m).1 hm) hmprofile hpublic hcapable
        · exact .wildcard (fun m hm => hnone m ((hreads.models m).2 hm)) hwild
  · rintro ⟨profile, hprofile, baseUrl, m, hpname, henabled, hbase, hregistry, hstands, rfl⟩
    have hcredentials := resolveCredentials_of_holds hvault hbase (hstored.held profile hprofile)
    have hp := (hreads.profiles _).2 ⟨profile, hprofile, rfl⟩
    refine ⟨m, profile.toProviderProfile, _, ?_, ?_, hcredentials, hregistry, rfl⟩
    · refine r.qualifiedRow_eq_ok.2 ⟨hp, hpname, henabled, ?_⟩
      cases hstands with
      | listed hm hmprofile hpublic hcapable => exact .inl ⟨(hreads.models m).2 hm, hmprofile, hpublic⟩
      | wildcard hnone hwild => exact .inr ⟨fun m hm => hnone m ((hreads.models m).1 hm), hwild, rfl⟩
    · cases hstands with
      | listed hm hmprofile hpublic hcapable => exact hcapable
      | wildcard hnone hwild => exact wildcardModel_hasCapability _ _ _ _

theorem exists_capability {m : Model} (hsome : m.capabilities ≠ [])
    (hallowed : ∀ text ∈ m.capabilities, text ∈ allowedCapabilities) :
    ∃ capability : Capability, m.hasCapability capability = true := by
  have hnames : ∀ text ∈ allowedCapabilities, ∃ capability : Capability, capability.asStr = text := by
    intro text htext
    simp only [allowedCapabilities, List.mem_cons, List.not_mem_nil, or_false] at htext
    rcases htext with rfl | rfl | rfl | rfl | rfl | rfl | rfl
    · exact ⟨.chat, rfl⟩
    · exact ⟨.imageGeneration, rfl⟩
    · exact ⟨.imageEdit, rfl⟩
    · exact ⟨.videoGeneration, rfl⟩
    · exact ⟨.audioTts, rfl⟩
    · exact ⟨.audioStt, rfl⟩
    · exact ⟨.embedding, rfl⟩
  obtain ⟨text, htext⟩ := List.exists_mem_of_ne_nil _ hsome
  obtain ⟨capability, rfl⟩ := hnames text (hallowed text htext)
  exact ⟨capability, List.any_eq_true.2 ⟨_, htext, by simp⟩⟩

/-! ## Every history -/

/-- What holds after a history of administration. -/
structure CatalogServed (crypto : CredentialCrypto) (texts : CredentialTexts) (masterKey : MasterKey)
    (requests : Nat → CatalogRequest) (keys : Uuid → Option String) (s : CatalogWorld) (tr : CatalogHistory) :
    Prop where
  authorized : ∀ i step, (i, step) ∈ tr → Role.fromStr (requests i).claims.role = some .superAdmin
  configured : ∀ m ∈ (catalogAfter s tr).models, Configured requests tr m
  priced : ∀ m ∈ (catalogAfter s tr).models, validatePricing m.pricing = .ok ()
  capable : ∀ m ∈ (catalogAfter s tr).models, ∃ capability : Capability, m.hasCapability capability = true
  targeted : ∀ row ∈ (catalogAfter s tr).aliases, ∃ m ∈ (catalogAfter s tr).models, m.id = row.targetModelId
  readable : (catalogAfter s tr).models.rows.length < 2 ^ 63 → ∃ c, ReadsCatalog c (catalogAfter s tr)
  resolved : ∀ r : DbModelRouter, r.vault = credentialVault crypto texts masterKey →
    ReadsCatalog r.catalog (catalogAfter s tr) → ∀ lb name suffix capability out, '/' ∉ name.toList →
    ((r.resolve lb (name ++ "/" ++ suffix) capability).1 = .ok out
      ↔ Routed (catalogAfter s tr) (catalogKeysAfter requests keys tr) r.registry name suffix capability out)

/-- However administrators work at the same time and whichever of their statements fail, the router serves what
    they have configured. -/
theorem catalog_served (crypto : CredentialCrypto) (texts : CredentialTexts) (masterKey : MasterKey)
    (requests : Nat → CatalogRequest) (keys : Uuid → Option String) (s : CatalogWorld) (tr : CatalogHistory)
    (hstart : CatalogStart crypto masterKey keys s) (h : CatalogInterleaved crypto masterKey requests s tr) :
    CatalogServed crypto texts masterKey requests keys s tr := by
  obtain ⟨hsound, -⟩ := catalogSound_of_history hstart h
  refine ⟨fun i step hmem => role_of_catalogHistory h hmem, hsound.configured, fun m hm => ?_, fun m hm => ?_,
    fun row hrow => ?_, hsound.readable, fun r hvault hreads lb name suffix capability out hname => ?_⟩
  · exact (hsound.configured m hm).priced
  · exact exists_capability (hsound.configured m hm).capabilities_ne_nil (hsound.accepted m hm).capabilities
  · exact Table.find?_isSome_iff.1 (hsound.targets row hrow)
  · exact resolve_qualified_iff hsound.stored hvault hreads hname

end

/-! ## A model that is renamed while its profile gets a key -/

/-- Prices as the administration asks for them. -/
def sampleModelPricing : Json := .obj [("input_price_per_million", .int 5), ("output_price_per_million", .int 15)]

/-- A model is for chats where no capability is named. -/
theorem parseCapabilities_empty : parseCapabilities "" = ["chat"] := by
  have hsplit : "".splitOn "," = [""] := by
    rw [String.splitOn, if_neg (by decide), String.splitOnAux, if_pos (by decide)]
    decide
  rw [parseCapabilities, hsplit]
  decide

/-- The row of a model of the first profile. -/
def sampleGptRow (publicId : String) : Model :=
  ⟨5, publicId, "openai", 1, "gpt-4o", ["chat"], sampleModelPricing, .obj []⟩

/-- A profile and a model are created, and the model is renamed. -/
def sampleCatalogRequests : Nat → CatalogRequest
  | 0 => ⟨⟨1, 10, "super_admin"⟩,
      .profiles (.create ⟨"openai", "openai", some "https://old", some "sk-test", false⟩)⟩
  | 1 => ⟨⟨1, 10, "super_admin"⟩, .createModel ⟨"gpt", "openai", 1, "gpt-4o", "", sampleModelPricing⟩⟩
  | 2 => ⟨⟨1, 10, "super_admin"⟩, .updateModel 5 ⟨some "gpt-4o", none⟩⟩
  | _ => ⟨⟨2, 10, "org_admin"⟩, .listModels⟩

/-- The credentials are sealed while the model is renamed. -/
def sampleCatalogHistory : CatalogHistory :=
  [(0, ⟨.inl (.create "openai" "openai" (some "https://old") false), .ok (sealedProfileRow "https://old" (.obj []))⟩),
    (1, ⟨.inr (.create "gpt" "openai" 1 "gpt-4o" ["chat"] sampleModelPricing), .ok (sampleGptRow "gpt")⟩),
    (2, ⟨.inr (.get 5), .ok (sampleGptRow "gpt")⟩),
    (0, ⟨.inl .drawNonce, sampleNonce⟩),
    (0, ⟨.inl (.setAuth 1 sampleSecret.toValue), .ok (sealedProfileRow "https://old" sampleSecret.toValue)⟩),
    (2, ⟨.inr (.update 5 "gpt-4o" ["chat"]), .ok (sampleGptRow "gpt-4o")⟩)]

theorem sampleCatalogHistory_interleaved :
    CatalogInterleaved sampleCrypto sampleMasterKey sampleCatalogRequests ⟨⟨.empty⟩, .empty, .empty⟩
      sampleCatalogHistory := by
  have hprofiles : ((sampleCatalogRequests 0).serve sampleCrypto sampleMasterKey).Runs anyAnswer
      (ownSteps 0 sampleCatalogHistory)
      (.ok (.profiles (.profile (profileJson (sealedProfileRow "https://old" sampleSecret.toValue))))) :=
    Program.runs_embed_iff.2 ⟨_, rfl, Program.runs_bind_iff.2 (.inr ⟨_, _, [], rfl, sampleProfile_created, .pure _⟩)⟩
  have hcreated : ((sampleCatalogRequests 1).serve sampleCrypto sampleMasterKey).Runs anyAnswer
      [⟨.inr (.create "gpt" "openai" 1 "gpt-4o" (parseCapabilities "") sampleModelPricing),
        .ok (sampleGptRow "gpt")⟩] (.ok (.model (sampleGptRow "gpt"))) :=
    .op trivial (.pure _)
  rw [parseCapabilities_empty] at hcreated
  have hupdated : ((sampleCatalogRequests 2).serve sampleCrypto sampleMasterKey).Runs anyAnswer
      (ownSteps 2 sampleCatalogHistory) (.ok (.model (sampleGptRow "gpt-4o"))) :=
    .op trivial (.op trivial (.pure _))
  refine ⟨⟨⟨rfl, ?_, rfl⟩, ⟨rfl, ⟨by decide, by decide, rfl, ?_⟩, rfl⟩, rfl, trivial, ⟨_, rfl, rfl⟩,
    ⟨⟨by decide, by decide, rfl, ?_⟩, _, rfl, rfl⟩, trivial⟩, fun i => ?_⟩
  · intro other hother
    cases hother
  · intro other hother
    cases hother
  · intro other hother hprofile hpublic
    obtain rfl : other = sampleGptRow "gpt" := List.mem_singleton.1 hother
    rfl
  · rcases i with _ | _ | _ | i
    · exact ⟨[], _, hprofiles⟩
    · exact ⟨[], _, hcreated⟩
    · exact ⟨[], _, hupdated⟩
    · exact ⟨[], _, .throw _⟩

theorem catalog_served_sample :
    CatalogServed sampleCrypto sampleTexts sampleMasterKey sampleCatalogRequests (fun _ => none)
      ⟨⟨.empty⟩, .empty, .empty⟩ sampleCatalogHistory := by
  have hstored : KeysStored sampleCrypto sampleMasterKey (fun _ => none) ⟨.empty⟩ :=
    ⟨fun row hrow => (by cases hrow), fun _ _ => rfl⟩
  have hstart : CatalogStart sampleCrypto sampleMasterKey (fun _ => none) ⟨⟨.empty⟩, .empty, .empty⟩ :=
    ⟨hstored, List.nodup_nil, fun m hm => (by cases hm), fun row hrow => (by cases hrow)⟩
  exact catalog_served _ _ _ _ _ _ _ hstart sampleCatalogHistory_interleaved

end Godwit
