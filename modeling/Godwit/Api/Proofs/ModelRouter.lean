import Mathlib.Data.List.Nodup
import Mathlib.Tactic.Common
import Mathlib.Tactic.NormNum
import Godwit.Api.ModelRouter

set_option autoImplicit false

/-! # Which listed models can be called

`/v1/models` lists every row whose own profile is enabled. A listed id can be called under every
load-balancer state exactly when `DbModelRouter.Routes` holds: a bare id needs every row of that id
enabled and capable, since the balancer picks one before anything is checked, and an id with a slash
is read as a reference to a profile. -/

namespace Godwit

/-! ## Selection -/

section FirstLeast

variable {κ : Type} [LT κ] [DecidableLT κ] (key : Uuid → κ)

theorem firstLeast_lt (ids : List Uuid) (i minIdx : Nat) (least : κ)
    (h : minIdx < i + ids.length) : firstLeast key ids i minIdx least < i + ids.length := by
  induction ids generalizing i minIdx least with
  | nil => simpa [firstLeast] using h
  | cons id rest ih =>
      rw [List.length_cons] at h ⊢
      simp only [firstLeast]
      split_ifs
      · have := ih (i + 1) i (key id) (by omega)
        omega
      · have := ih (i + 1) minIdx least (by omega)
        omega

/-- Nothing replaces a least key. -/
theorem firstLeast_of_least (ids : List Uuid) (i minIdx : Nat) (least : κ)
    (h : ∀ id ∈ ids, ¬ key id < least) : firstLeast key ids i minIdx least = minIdx := by
  induction ids generalizing i with
  | nil => rfl
  | cons id rest ih =>
      rw [firstLeast, if_neg (h id List.mem_cons_self)]
      exact ih (i + 1) fun x hx => h x (List.mem_cons_of_mem _ hx)

/-- The first id whose key is below the keys before it and not above those after it is found. -/
theorem firstLeast_append (before : List Uuid) (id : Uuid) (after : List Uuid) (i minIdx : Nat)
    (least : κ) (hleast : key id < least) (hbefore : ∀ x ∈ before, key id < key x)
    (hafter : ∀ x ∈ after, ¬ key x < key id) :
    firstLeast key (before ++ id :: after) i minIdx least = i + before.length := by
  induction before generalizing i minIdx least with
  | nil =>
      simp only [List.nil_append, firstLeast, if_pos hleast, List.length_nil, Nat.add_zero]
      exact firstLeast_of_least key after (i + 1) i (key id) hafter
  | cons x before ih =>
      have hrest : ∀ y ∈ before, key id < key y := fun y hy => hbefore y (List.mem_cons_of_mem _ hy)
      simp only [List.cons_append, firstLeast, List.length_cons]
      split_ifs
      · rw [ih (i + 1) i (key x) (hbefore x List.mem_cons_self) hrest]
        omega
      · rw [ih (i + 1) minIdx least hleast hrest]
        omega

end FirstLeast

/-- The balancer picks an index of the list. -/
theorem LoadBalancer.selectProvider_lt (lb : LoadBalancer) (strategy : LoadBalanceStrategy)
    {ids : List Uuid} (h : ids ≠ []) :
    ∃ idx, (lb.selectProvider strategy ids).1 = some idx ∧ idx < ids.length := by
  cases ids with
  | nil => exact absurd rfl h
  | cons first rest =>
      cases strategy with
      | roundRobin => exact ⟨_, rfl, Nat.mod_lt _ (by simp)⟩
      | leastBusy =>
          refine ⟨_, rfl, ?_⟩
          have := firstLeast_lt (fun id => (lb id).inFlight) (first :: rest) 0 0
            (BitVec.allOnes 64) (by simp)
          omega
      | latency =>
          refine ⟨_, rfl, ?_⟩
          have := firstLeast_lt (fun id => ((lb id).latencyEwma : WithTop ℚ)) (first :: rest) 0 0 ⊤
            (by simp)
          omega

/-- Every index is picked in some state of the balancer. -/
theorem LoadBalancer.exists_selectProvider (strategy : LoadBalanceStrategy) (before : List Uuid)
    (id : Uuid) (after : List Uuid) (hnodup : (before ++ id :: after).Nodup)
    (hlen : (before ++ id :: after).length < 2 ^ 63) :
    ∃ lb : LoadBalancer, (lb.selectProvider strategy (before ++ id :: after)).1
      = some before.length := by
  -- the state in which `id` alone has nothing in flight and no latency
  let idle : LoadBalancer := fun x => if x = id then ⟨0, 0, 0⟩ else ⟨0, 1, 1⟩
  have hbefore : ∀ x ∈ before, x ≠ id := by
    intro x hx he
    exact (List.nodup_append.1 hnodup).2.2 x hx id List.mem_cons_self he
  obtain ⟨first, rest, hids⟩ : ∃ first rest, before ++ id :: after = first :: rest := by
    cases before with
    | nil => exact ⟨_, _, rfl⟩
    | cons x before => exact ⟨_, _, rfl⟩
  cases strategy with
  | roundRobin =>
      refine ⟨fun _ => ⟨BitVec.ofNat 64 before.length, 0, 0⟩, ?_⟩
      have hlt : before.length < (before ++ id :: after).length := by
        simp only [List.length_append, List.length_cons]
        omega
      rw [hids] at hlt hlen ⊢
      simp only [LoadBalancer.selectProvider, BitVec.toNat_ofNat, Option.some.injEq]
      rw [Nat.mod_eq_of_lt (by omega : before.length < 2 ^ 64), Nat.mod_eq_of_lt hlt]
  | leastBusy =>
      refine ⟨idle, ?_⟩
      have hfound := firstLeast_append (fun x => (idle x).inFlight) before id after 0 0
        (BitVec.allOnes 64) (by simp [idle]) (fun x hx => by simp [idle, hbefore x hx])
        (fun x _ => by simp [idle])
      rw [Nat.zero_add] at hfound
      rw [hids] at hfound ⊢
      simp only [LoadBalancer.selectProvider, hfound]
  | latency =>
      refine ⟨idle, ?_⟩
      have hnonneg : ∀ x, (0 : ℚ) ≤ (idle x).latencyEwma := by
        intro x
        simp only [idle]
        split_ifs <;> norm_num
      have hfound := firstLeast_append (fun x => ((idle x).latencyEwma : WithTop ℚ)) before id after
        0 0 ⊤ (WithTop.coe_lt_top _) (fun x hx => by simp [idle, hbefore x hx])
        (fun x _ => by
          have hzero : (idle id).latencyEwma = 0 := by simp [idle]
          rw [hzero, WithTop.coe_lt_coe, not_lt]
          exact hnonneg x)
      rw [Nat.zero_add] at hfound
      rw [hids] at hfound ⊢
      simp only [LoadBalancer.selectProvider, hfound]

theorem selectLoadBalanced_isSome (lb : LoadBalancer) {candidates : List Model}
    (h : candidates ≠ []) (strategy : LoadBalanceStrategy) :
    ∃ m ∈ candidates, (selectLoadBalanced lb candidates strategy).1 = some m := by
  obtain ⟨idx, hidx, hlt⟩ := lb.selectProvider_lt strategy
    (show candidates.map Model.id ≠ [] by simpa using h)
  rw [List.length_map] at hlt
  refine ⟨candidates[idx], List.getElem_mem hlt, ?_⟩
  simp [selectLoadBalanced, hidx, hlt]

theorem exists_selectLoadBalanced {candidates : List Model}
    (hnodup : (candidates.map Model.id).Nodup) (hlen : candidates.length < 2 ^ 63)
    (strategy : LoadBalanceStrategy) {m : Model} (hm : m ∈ candidates) :
    ∃ lb : LoadBalancer, (selectLoadBalanced lb candidates strategy).1 = some m := by
  obtain ⟨before, after, rfl⟩ := List.append_of_mem hm
  rw [List.map_append, List.map_cons] at hnodup
  obtain ⟨lb, hlb⟩ := LoadBalancer.exists_selectProvider strategy (before.map Model.id) m.id
    (after.map Model.id) hnodup (by simpa using hlen)
  refine ⟨lb, ?_⟩
  simp [selectLoadBalanced, hlb]

/-! ## Resolution of a chosen row -/

section Router

variable (r : DbModelRouter)

/-- Every profile has a base url, credentials that can be read, and a registered protocol. -/
def DbModelRouter.Servable : Prop :=
  ∀ p ∈ r.catalog.profiles,
    (∃ credentials, r.resolveCredentials p = .ok credentials) ∧ p.protocol ∈ r.registry

/-- The call goes through, to an enabled profile. -/
def Reaches (outcome : Except PasteurError ResolvedModel) : Prop :=
  ∃ resolved, outcome = .ok resolved ∧ resolved.profile.enabled = true

/-- A row was chosen, its profile is enabled, and it can do what is asked. -/
def Serves (capability : Capability)
    (row : Except PasteurError (Model × ProviderProfile)) : Prop :=
  ∃ m p, row = .ok (m, p) ∧ p.enabled = true ∧ m.hasCapability capability = true

/-- A reference that has no row is not resolved. -/
theorem DbModelRouter.resolve_error {lb : LoadBalancer} {ref : String} {capability : Capability}
    {e : PasteurError} (h : (r.chooseRow lb ref capability).1 = .error e) :
    (r.resolve lb ref capability).1 = .error e := by
  obtain ⟨outcome, lb', hchoose⟩ : ∃ outcome lb', r.chooseRow lb ref capability = (outcome, lb') :=
    ⟨_, _, rfl⟩
  rw [hchoose] at h
  subst h
  simp [DbModelRouter.resolve, hchoose]

/-- Once a row of a servable profile is chosen, only the capability can fail. -/
theorem DbModelRouter.resolve_reaches_iff (hserv : r.Servable) (lb : LoadBalancer) (ref : String)
    (capability : Capability)
    (hrow : ∀ m p, (r.chooseRow lb ref capability).1 = .ok (m, p) → p ∈ r.catalog.profiles) :
    Reaches (r.resolve lb ref capability).1 ↔ Serves capability (r.chooseRow lb ref capability).1 := by
  rcases hchoose : r.chooseRow lb ref capability with ⟨row, lb'⟩
  rw [hchoose] at hrow
  cases row with
  | error e =>
      have hresolve : r.resolve lb ref capability = (.error e, lb') := by
        simp [DbModelRouter.resolve, hchoose]
      rw [hresolve]
      simp [Reaches, Serves]
  | ok mp =>
      obtain ⟨m, p⟩ := mp
      obtain ⟨⟨credentials, hcred⟩, hreg⟩ := hserv p (hrow m p rfl)
      by_cases hcap : m.hasCapability capability = true
      · have hresolve : (r.resolve lb ref capability).1 = .ok ⟨m, p, credentials, p.protocol,
            if m.id = Uuid.nil then none else some m.id⟩ := by
          simp [DbModelRouter.resolve, hchoose, hcap, hcred, hreg]
        rw [hresolve]
        simp [Reaches, Serves, hcap]
      · have hresolve : ∃ e, (r.resolve lb ref capability).1 = .error e := by
          simp [DbModelRouter.resolve, hchoose, hcap]
        obtain ⟨e, he⟩ := hresolve
        rw [he]
        simp [Reaches, Serves, hcap]

/-! ## References to a profile -/

/-- A listed id can be called under every state of the balancer. A reference with a slash names an
    enabled profile and a capable row of it, or a wildcard profile without such a row; behind a bare
    id every row is capable and has an enabled profile. -/
def DbModelRouter.Routes (ref : String) (capability : Capability) : Prop :=
  match splitOnce ref with
  | some (name, suffix) =>
    ∃ p ∈ r.catalog.profiles, p.name = name ∧ p.enabled = true ∧
      ((∃ m ∈ r.catalog.models, m.providerProfileId = p.id ∧ m.publicId = suffix ∧
          m.hasCapability capability = true) ∨
        ((∀ m ∈ r.catalog.models, ¬ (m.providerProfileId = p.id ∧ m.publicId = suffix)) ∧
          p.allowWildcard = true))
  | none =>
    ∀ m ∈ r.catalog.models, m.publicId = ref → m.hasCapability capability = true ∧
      ∃ p ∈ r.catalog.profiles, p.id = m.providerProfileId ∧ p.enabled = true

theorem ensureEnabled_eq_ok {p q : ProviderProfile} :
    ensureEnabled p = .ok q ↔ p = q ∧ p.enabled = true := by
  unfold ensureEnabled
  cases h : p.enabled <;> simp

/-- A row of a profile exists exactly when the query for it succeeds. -/
theorem Catalog.getByProfileAndPublicId_cases (c : Catalog) (profileId : Uuid) (publicId : String) :
    (∃ m, c.getByProfileAndPublicId profileId publicId = .ok m) ∨
      (c.getByProfileAndPublicId profileId publicId = .error .notFound ∧
        ∀ m ∈ c.models, ¬ (m.providerProfileId = profileId ∧ m.publicId = publicId)) := by
  cases h : c.getByProfileAndPublicId profileId publicId with
  | ok m => exact .inl ⟨m, rfl⟩
  | error e =>
      obtain rfl := rowOrNotFound_eq_error h
      refine .inr ⟨rfl, fun m hm hrow => ?_⟩
      rw [c.getByProfileAndPublicId_eq_ok.2 ⟨hm, hrow⟩] at h
      cases h

/-- What a reference to a profile selects. -/
theorem DbModelRouter.qualifiedRow_eq_ok {ref name suffix : String} {capability : Capability}
    {m : Model} {p : ProviderProfile} :
    r.qualifiedRow ref name suffix capability = .ok (m, p) ↔
      p ∈ r.catalog.profiles ∧ p.name = name ∧ p.enabled = true ∧
      ((m ∈ r.catalog.models ∧ m.providerProfileId = p.id ∧ m.publicId = suffix) ∨
        ((∀ m' ∈ r.catalog.models, ¬ (m'.providerProfileId = p.id ∧ m'.publicId = suffix)) ∧
          p.allowWildcard = true ∧ m = wildcardModel ref suffix p capability)) := by
  cases hname : r.catalog.getProfileByName name with
  | error e =>
      refine iff_of_false (by simp [DbModelRouter.qualifiedRow, hname, bind, Except.bind]) ?_
      rintro ⟨hp, hpname, -⟩
      rw [r.catalog.getProfileByName_eq_ok.2 ⟨hp, hpname⟩] at hname
      cases hname
  | ok q =>
      have hq := r.catalog.getProfileByName_eq_ok.1 hname
      -- names are distinct, so the profile that is found is the only one to be talked of
      have hunique : p ∈ r.catalog.profiles ∧ p.name = name → p = q := by
        intro hp
        have := (r.catalog.getProfileByName_eq_ok.2 hp).symm.trans hname
        simpa using this
      by_cases henabled : q.enabled = true
      · have hensure : ensureEnabled q = .ok q := ensureEnabled_eq_ok.2 ⟨rfl, henabled⟩
        rcases r.catalog.getByProfileAndPublicId_cases q.id suffix with ⟨m', hrow⟩ | ⟨hrow, hnone⟩
        · have hm' := r.catalog.getByProfileAndPublicId_eq_ok.1 hrow
          have heval : r.qualifiedRow ref name suffix capability = .ok (m', q) := by
            simp [DbModelRouter.qualifiedRow, hname, hensure, hrow, bind, Except.bind]
          rw [heval]
          constructor
          · intro h
            obtain ⟨rfl, rfl⟩ : m' = m ∧ q = p := by simpa using h
            exact ⟨hq.1, hq.2, henabled, .inl hm'⟩
          · rintro ⟨hp, hpname, -, hcase⟩
            obtain rfl := hunique ⟨hp, hpname⟩
            rcases hcase with hm | ⟨hnone, -⟩
            · have := (r.catalog.getByProfileAndPublicId_eq_ok.2 hm).symm.trans hrow
              obtain rfl : m = m' := by simpa using this
              rfl
            · exact absurd hm'.2 (hnone m' hm'.1)
        · by_cases hwild : q.allowWildcard = true
          · have heval : r.qualifiedRow ref name suffix capability
                = .ok (wildcardModel ref suffix q capability, q) := by
              simp [DbModelRouter.qualifiedRow, hname, hensure, hrow, hwild, bind, Except.bind]
            rw [heval]
            constructor
            · intro h
              obtain ⟨rfl, rfl⟩ : wildcardModel ref suffix q capability = m ∧ q = p := by
                simpa using h
              exact ⟨hq.1, hq.2, henabled, .inr ⟨hnone, hwild, rfl⟩⟩
            · rintro ⟨hp, hpname, -, hcase⟩
              obtain rfl := hunique ⟨hp, hpname⟩
              rcases hcase with hm | ⟨-, -, rfl⟩
              · exact absurd hm.2 (hnone m hm.1)
              · rfl
          · have heval : r.qualifiedRow ref name suffix capability = .error .notFound := by
              simp [DbModelRouter.qualifiedRow, hname, hensure, hrow, hwild, bind, Except.bind]
            rw [heval]
            refine iff_of_false (by simp) ?_
            rintro ⟨hp, hpname, -, hcase⟩
            obtain rfl := hunique ⟨hp, hpname⟩
            rcases hcase with hm | ⟨-, hwild', -⟩
            · exact hnone m hm.1 hm.2
            · exact hwild hwild'
      · have hensure : ensureEnabled q = .error .notFound := by simp [ensureEnabled, henabled]
        refine iff_of_false (by simp [DbModelRouter.qualifiedRow, hname, hensure, bind, Except.bind]) ?_
        rintro ⟨hp, hpname, hpenabled, -⟩
        obtain rfl := hunique ⟨hp, hpname⟩
        exact henabled hpenabled

theorem wildcardModel_hasCapability (ref suffix : String) (p : ProviderProfile)
    (capability : Capability) :
    (wildcardModel ref suffix p capability).hasCapability capability = true := by
  simp [wildcardModel, Model.hasCapability]

theorem DbModelRouter.withProfile_eq_ok {m m' : Model} {p : ProviderProfile} :
    r.withProfile m = .ok (m', p) ↔
      m = m' ∧ p ∈ r.catalog.profiles ∧ p.id = m.providerProfileId ∧ p.enabled = true := by
  cases hget : r.catalog.getProfile m.providerProfileId with
  | error e =>
      refine iff_of_false (by simp [DbModelRouter.withProfile, hget, bind, Except.bind]) ?_
      rintro ⟨-, hp, hid, -⟩
      rw [r.catalog.getProfile_eq_ok.2 ⟨hp, hid⟩] at hget
      cases hget
  | ok q =>
      have hq := r.catalog.getProfile_eq_ok.1 hget
      have hunique : p ∈ r.catalog.profiles ∧ p.id = m.providerProfileId → p = q := by
        intro hp
        have := (r.catalog.getProfile_eq_ok.2 hp).symm.trans hget
        simpa using this
      by_cases henabled : q.enabled = true
      · have hensure : ensureEnabled q = .ok q := ensureEnabled_eq_ok.2 ⟨rfl, henabled⟩
        have heval : r.withProfile m = .ok (m, q) := by
          simp [DbModelRouter.withProfile, hget, hensure, bind, Except.bind]
        rw [heval]
        constructor
        · intro h
          obtain ⟨rfl, rfl⟩ : m = m' ∧ q = p := by simpa using h
          exact ⟨rfl, hq.1, hq.2, henabled⟩
        · rintro ⟨rfl, hp, hid, -⟩
          rw [hunique ⟨hp, hid⟩]
      · have hensure : ensureEnabled q = .error .notFound := by simp [ensureEnabled, henabled]
        refine iff_of_false (by simp [DbModelRouter.withProfile, hget, hensure, bind, Except.bind]) ?_
        rintro ⟨-, hp, hid, hpenabled⟩
        exact henabled (hunique ⟨hp, hid⟩ ▸ hpenabled)

/-! ## Bare references -/

/-- What a bare reference selects in a given state. -/
theorem DbModelRouter.bareRow_fst (lb : LoadBalancer) {publicId : String}
    (hne : r.candidates publicId ≠ []) :
    ∃ m ∈ r.candidates publicId, (r.bareRow lb publicId).1 = r.withProfile m := by
  unfold DbModelRouter.bareRow
  split
  · rename_i hnil
    exact absurd hnil hne
  · rename_i m hone
    exact ⟨m, by rw [hone]; exact List.mem_singleton_self m, rfl⟩
  · obtain ⟨m, hm, hsel⟩ := selectLoadBalanced_isSome lb hne
      (strategyFor (r.candidates publicId))
    refine ⟨m, hm, ?_⟩
    rcases hpair : selectLoadBalanced lb (r.candidates publicId)
      (strategyFor (r.candidates publicId)) with ⟨chosen, lb'⟩
    rw [hpair] at hsel
    obtain rfl : chosen = some m := hsel
    rfl

theorem DbModelRouter.candidates_nodup (publicId : String) :
    ((r.candidates publicId).map Model.id).Nodup :=
  r.catalog.modelIds_nodup.sublist (List.filter_sublist.map Model.id)

/-- Every row of a bare reference is selected in some state. -/
theorem DbModelRouter.exists_bareRow {publicId : String} {m : Model}
    (hm : m ∈ r.candidates publicId) :
    ∃ lb : LoadBalancer, (r.bareRow lb publicId).1 = r.withProfile m := by
  have hlen : (r.candidates publicId).length < 2 ^ 63 :=
    (List.length_filter_le _ _).trans_lt r.catalog.models_bounded
  obtain ⟨lb, hsel⟩ := exists_selectLoadBalanced (r.candidates_nodup publicId) hlen
    (strategyFor (r.candidates publicId)) hm
  refine ⟨lb, ?_⟩
  unfold DbModelRouter.bareRow
  split
  · rename_i hnil
    rw [hnil] at hm
    simp at hm
  · rename_i m' hone
    rw [hone] at hm
    rw [List.mem_singleton.1 hm]
  · rcases hpair : selectLoadBalanced lb (r.candidates publicId)
      (strategyFor (r.candidates publicId)) with ⟨chosen, lb'⟩
    rw [hpair] at hsel
    obtain rfl : chosen = some m := hsel
    rfl

theorem DbModelRouter.mem_candidates {publicId : String} {m : Model} :
    m ∈ r.candidates publicId ↔ m ∈ r.catalog.models ∧ m.publicId = publicId := by
  simp [DbModelRouter.candidates]

/-- Only rows of the catalog, and rows made up for a profile of it, are chosen. -/
theorem DbModelRouter.chooseRow_profile {lb : LoadBalancer} {ref : String}
    {capability : Capability} {m : Model} {p : ProviderProfile}
    (h : (r.chooseRow lb ref capability).1 = .ok (m, p)) : p ∈ r.catalog.profiles := by
  unfold DbModelRouter.chooseRow at h
  split at h
  · exact (r.qualifiedRow_eq_ok.1 h).1
  · by_cases hne : r.candidates ref = []
    · simp [DbModelRouter.bareRow, hne] at h
    · obtain ⟨m', -, hrow⟩ := r.bareRow_fst lb hne
      rw [hrow] at h
      exact (r.withProfile_eq_ok.1 h).2.1

/-! ## The listing -/

/-- A listed row is in the catalog. -/
theorem mem_of_mem_filterModels {models : List Model} {profiles : List ProviderProfile} {m : Model}
    (h : m ∈ filterModelsWithEnabledProfiles models profiles) : m ∈ models :=
  (List.mem_filter.1 h).1

/-- An advertised id can be called for a capability under every state of the load balancer exactly
    when `Routes` holds. -/
theorem DbModelRouter.listed_reaches_iff (hserv : r.Servable) {row : Model}
    (hrow : row ∈ filterModelsWithEnabledProfiles r.catalog.models r.catalog.profiles)
    (capability : Capability) :
    (∀ lb, Reaches (r.resolve lb row.publicId capability).1) ↔ r.Routes row.publicId capability := by
  have hreach := fun lb => r.resolve_reaches_iff hserv lb row.publicId capability
    (fun m p h => r.chooseRow_profile h)
  simp only [hreach]
  unfold DbModelRouter.chooseRow DbModelRouter.Routes
  cases hsplit : splitOnce row.publicId with
  | some parts =>
      obtain ⟨name, suffix⟩ := parts
      simp only
      constructor
      · intro hall
        obtain ⟨m, p, hm, henabled, hcap'⟩ := hall LoadBalancer.new
        obtain ⟨hp, hname, -, hcase⟩ := r.qualifiedRow_eq_ok.1 hm
        refine ⟨p, hp, hname, henabled, ?_⟩
        rcases hcase with ⟨hmem, hprofile, hsuffix⟩ | ⟨hnone, hwild, -⟩
        · exact .inl ⟨m, hmem, hprofile, hsuffix, hcap'⟩
        · exact .inr ⟨hnone, hwild⟩
      · rintro ⟨p, hp, hname, henabled, ⟨m, hmem, hprofile, hsuffix, hcap'⟩ | ⟨hnone, hwild⟩⟩ _
        · exact ⟨m, p, r.qualifiedRow_eq_ok.2
            ⟨hp, hname, henabled, .inl ⟨hmem, hprofile, hsuffix⟩⟩, henabled, hcap'⟩
        · exact ⟨_, p, r.qualifiedRow_eq_ok.2
            ⟨hp, hname, henabled, .inr ⟨hnone, hwild, rfl⟩⟩, henabled,
            wildcardModel_hasCapability _ _ _ _⟩
  | none =>
      have hmem : row ∈ r.candidates row.publicId :=
        r.mem_candidates.2 ⟨mem_of_mem_filterModels hrow, rfl⟩
      simp only
      constructor
      · intro hall m hm hid
        obtain ⟨lb, hlb⟩ := r.exists_bareRow (r.mem_candidates.2 ⟨hm, hid⟩)
        obtain ⟨m', p, hrow', henabled, hcap'⟩ := hall lb
        rw [hlb] at hrow'
        obtain ⟨rfl, hp, hpid, -⟩ := r.withProfile_eq_ok.1 hrow'
        exact ⟨hcap', p, hp, hpid, henabled⟩
      · intro hall lb
        obtain ⟨m, hm, hlb⟩ := r.bareRow_fst lb (List.ne_nil_of_mem hmem)
        obtain ⟨hm, hid⟩ := r.mem_candidates.1 hm
        obtain ⟨hcap', p, hp, hpid, henabled⟩ := hall m hm hid
        exact ⟨m, p, hlb.trans (r.withProfile_eq_ok.2 ⟨rfl, hp, hpid, henabled⟩), henabled, hcap'⟩

end Router

/-! ## Two catalogs -/

/-- A profile without credentials. -/
def sampleProfile (id : Uuid) (name : String) (enabled : Bool) : ProviderProfile :=
  ⟨id, name, "openai", some "https://api.example.com/v1", false, .null, enabled⟩

/-- A chat row of a profile. -/
def sampleRow (id : Uuid) (publicId : String) (profileId : Uuid) : Model :=
  ⟨id, publicId, "openai", profileId, publicId, ["chat"], .obj [], .obj []⟩

/-- Two replicas of one id, on profiles of which the second may be disabled. -/
def replicas (secondEnabled : Bool) : Catalog where
  models := [sampleRow 1 "gpt" 11, sampleRow 2 "gpt" 12]
  profiles := [sampleProfile 11 "east" true, sampleProfile 12 "west" secondEnabled]
  modelIds_nodup := by decide
  profileIds_nodup := by simp [sampleProfile]
  profileNames_nodup := by simp [sampleProfile]
  publicIds_nodup := by decide
  profile_exists := by simp [sampleRow, sampleProfile]
  models_bounded := by simp

/-- The router over that catalog. -/
def replicaRouter (secondEnabled : Bool) : DbModelRouter :=
  ⟨replicas secondEnabled, ["openai"], fun _ => .error "none stored", fun _ => .ok ""⟩

theorem replicaRouter_servable (secondEnabled : Bool) : (replicaRouter secondEnabled).Servable := by
  intro p hp
  have hp' : p = sampleProfile 11 "east" true ∨ p = sampleProfile 12 "west" secondEnabled := by
    simpa [replicaRouter, replicas] using hp
  rcases hp' with rfl | rfl
  · exact ⟨⟨_, rfl⟩, by simp [replicaRouter, sampleProfile]⟩
  · exact ⟨⟨_, rfl⟩, by simp [replicaRouter, sampleProfile]⟩

/-- The first replica is listed in both catalogs. -/
theorem sampleRow_mem_filterModels (secondEnabled : Bool) :
    sampleRow 1 "gpt" 11 ∈ filterModelsWithEnabledProfiles (replicaRouter secondEnabled).catalog.models
      (replicaRouter secondEnabled).catalog.profiles := by
  simp [filterModelsWithEnabledProfiles, replicaRouter, replicas, sampleRow, sampleProfile]

/-- With both profiles enabled, the listed id can be called whatever the balancer's state. -/
theorem listed_reaches_enabled :
    (replicaRouter true).Routes "gpt" .chat
      ∧ ∀ lb, Reaches ((replicaRouter true).resolve lb "gpt" .chat).1 := by
  suffices hroutes : (replicaRouter true).Routes "gpt" .chat from
    ⟨hroutes, (@DbModelRouter.listed_reaches_iff (replicaRouter true) (replicaRouter_servable true)
      (sampleRow 1 "gpt" 11) (sampleRow_mem_filterModels true) .chat).2 hroutes⟩
  have hsplit : splitOnce "gpt" = none := by decide
  simp [DbModelRouter.Routes, sampleRow, hsplit, replicaRouter, replicas, sampleProfile,
    Model.hasCapability, Capability.asStr]

/-- With the second profile disabled the id is still listed, and the balancer may pick its row. -/
theorem listed_not_reached :
    ¬ ∀ (r : DbModelRouter) (lb : LoadBalancer) (row : Model) (capability : Capability),
        r.Servable → row ∈ filterModelsWithEnabledProfiles r.catalog.models r.catalog.profiles →
        row.hasCapability capability = true → Reaches (r.resolve lb row.publicId capability).1 := by
  intro h
  obtain ⟨resolved, hresolved, -⟩ := h (replicaRouter false) (fun _ => ⟨1, 0, 0⟩)
    (sampleRow 1 "gpt" 11) .chat (replicaRouter_servable false) (sampleRow_mem_filterModels false)
    (by decide)
  have hsplit : splitOnce "gpt" = none := by decide
  have hcandidates : (replicaRouter false).candidates "gpt"
      = [sampleRow 1 "gpt" 11, sampleRow 2 "gpt" 12] := by
    simp [DbModelRouter.candidates, replicaRouter, replicas, sampleRow]
  have hstrategy : strategyFor [sampleRow 1 "gpt" 11, sampleRow 2 "gpt" 12] = .roundRobin := rfl
  have hdisabled : (replicaRouter false).withProfile (sampleRow 2 "gpt" 12) = .error .notFound := rfl
  have hchoose : ((replicaRouter false).chooseRow (fun _ => ⟨1, 0, 0⟩) "gpt" .chat).1
      = .error .notFound := by
    simp only [DbModelRouter.chooseRow, hsplit, DbModelRouter.bareRow, hcandidates, hstrategy,
      selectLoadBalanced, LoadBalancer.selectProvider]
    exact hdisabled
  have hresolve := (replicaRouter false).resolve_error hchoose
  rw [show (sampleRow 1 "gpt" 11).publicId = "gpt" from rfl, hresolve] at hresolved
  cases hresolved

end Godwit
