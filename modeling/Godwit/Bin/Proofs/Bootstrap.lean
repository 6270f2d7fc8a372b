import Godwit.Admin.Proofs.ApiKeys
import Godwit.Bin.Bootstrap

set_option autoImplicit false

/-! # Startups that are stopped

A startup writes profiles only into an empty table, and the account only where it finds none: what a startup leaves
half written no later one completes. So the database is as it should be after startups that stopped anywhere and one
that ended exactly when none stopped between its first profile and its last credentials, or between the account and
its password. -/

namespace Godwit

/-! ## What a startup is for -/

section Goal

variable (keys : BootstrapKeys)

/-- The provider has a profile with its key. -/
def HasCredentials (s : BootstrapWorld) (provider : LegacyProviderConfig) : Prop :=
  ∃ profile ∈ s.profiles, profile.name = provider.name
    ∧ ∃ secret : EncryptedSecret, profile.auth = secret.toValue
      ∧ keys.decryptApiKey secret = .ok provider.apiKey

/-- Every configured provider has a profile with its credentials. -/
def Seeded (legacy : List LegacyProviderConfig) (s : BootstrapWorld) : Prop :=
  ∀ provider ∈ legacy, HasCredentials keys s provider

/-- The user can log in with the password. -/
def HasPassword (password : String) (user : User) : Prop :=
  ∃ hash, user.passwordHash = some hash ∧ keys.argon2.verify password hash = true

/-- The admin can log in, and the providers can be called. -/
def Bootstrapped (legacy : List LegacyProviderConfig) (email password : String) (s : BootstrapWorld) : Prop :=
  (∃ user ∈ s.users, user.email = email ∧ HasPassword keys password user) ∧ Seeded keys legacy s

end Goal

/-! ## Where a startup may stop -/

/-- A profile was inserted. -/
def createsProfile : Step BootstrapStore → Bool
  | ⟨.createProfile _ _ _ _, .ok _⟩ => true
  | _ => false

/-- The credentials of a profile were written. -/
def setsAuth : Step BootstrapStore → Bool
  | ⟨.setAuth _ _, .ok _⟩ => true
  | _ => false

/-- A user was inserted. -/
def createsUser : Step BootstrapStore → Bool
  | ⟨.createUser _ _ _ _, .ok _⟩ => true
  | _ => false

/-- A password was written. -/
def setsPassword : Step BootstrapStore → Bool
  | ⟨.setPasswordHash _ _, .ok _⟩ => true
  | _ => false

/-- A step of the second half of the startup. -/
def writesAccount (step : Step BootstrapStore) : Bool := createsUser step || setsPassword step

/-- A startup that inserts a profile gets to the last credentials. -/
def WholeProfiles (legacy : List LegacyProviderConfig) (tr : List (Step BootstrapStore)) : Prop :=
  tr.any createsProfile = true → tr.countP setsAuth = legacy.length

/-- A startup that inserts the account gets to its password. -/
def WholeAdmin (tr : List (Step BootstrapStore)) : Prop :=
  tr.any createsUser = true → tr.any setsPassword = true

theorem wholeProfiles_of_idle {legacy : List LegacyProviderConfig} {tr : List (Step BootstrapStore)}
    (h : tr.any createsProfile = false) : WholeProfiles legacy tr := by
  intro hcreated
  rw [h] at hcreated
  cases hcreated

theorem wholeAdmin_of_idle {tr : List (Step BootstrapStore)} (h : tr.any createsUser = false) : WholeAdmin tr := by
  intro hcreated
  rw [h] at hcreated
  cases hcreated

/-- A step that writes no profile does not count. -/
theorem wholeProfiles_cons {legacy : List LegacyProviderConfig} {step : Step BootstrapStore}
    (hprofile : createsProfile step = false) (hauth : setsAuth step = false) {tr : List (Step BootstrapStore)} :
    WholeProfiles legacy (step :: tr) ↔ WholeProfiles legacy tr := by
  simp [WholeProfiles, hprofile, hauth]

/-! ## Profiles -/

section Profiles

variable {keys : BootstrapKeys}

/-- A provider has no profile with credentials. -/
def HalfSeeded (legacy : List LegacyProviderConfig) (s : BootstrapWorld) : Prop :=
  ∃ provider ∈ legacy, ∀ profile ∈ s.profiles, profile.name = provider.name → profile.auth = .obj []

theorem EncryptedSecret.toValue_ne_empty (secret : EncryptedSecret) : secret.toValue ≠ .obj [] := by
  intro h
  simp only [EncryptedSecret.toValue, Json.object, objectFields, setField, List.foldl, Json.obj.injEq] at h
  split_ifs at h

theorem HalfSeeded.not_seeded {legacy : List LegacyProviderConfig} {s : BootstrapWorld}
    (h : HalfSeeded legacy s) : ¬ Seeded keys legacy s := by
  intro hseeded
  obtain ⟨provider, hprovider, hbare⟩ := h
  obtain ⟨profile, hprofile, hname, secret, hauth, -⟩ := hseeded provider hprovider
  rw [hbare profile hprofile hname] at hauth
  exact secret.toValue_ne_empty hauth.symm

/-- No profile has the name of one of the providers. -/
def NamesFree (legacy : List LegacyProviderConfig) (s : BootstrapWorld) : Prop :=
  ∀ profile ∈ s.profiles, ∀ provider ∈ legacy, profile.name ≠ provider.name

/-- What the loop has done when it is stopped. -/
structure SeedRun (keys : BootstrapKeys) (legacy : List LegacyProviderConfig) (s s' : BootstrapWorld)
    (tr : List (Step BootstrapStore)) : Prop where
  kept : ∀ profile ∈ s.profiles, profile ∈ s'.profiles
  users : s'.users = s.users
  no_account : tr.any writesAccount = false
  idle : tr.any createsProfile = false → s'.profiles = s.profiles
  created : tr.any createsProfile = true → ∃ profile, profile ∈ s'.profiles
  full : tr.countP setsAuth = legacy.length → Seeded keys legacy s'
  short : tr.countP setsAuth ≠ legacy.length → HalfSeeded legacy s'

/-- Nothing is written. -/
theorem SeedRun.of_idle {legacy : List LegacyProviderConfig} {s : BootstrapWorld}
    {tr : List (Step BootstrapStore)} (hfree : NamesFree legacy s) (hauth : tr.countP setsAuth = 0)
    (hprofile : tr.any createsProfile = false) (haccount : tr.any writesAccount = false) :
    SeedRun keys legacy s s tr where
  kept _ h := h
  users := rfl
  no_account := haccount
  idle _ := rfl
  created h := by
    rw [hprofile] at h
    cases h
  full h := by
    rw [hauth, eq_comm, List.length_eq_zero_iff] at h
    subst h
    exact fun _ hprovider => absurd hprovider List.not_mem_nil
  short h := by
    cases legacy with
    | nil => exact absurd hauth h
    | cons provider legacy =>
        exact ⟨provider, List.mem_cons_self,
          fun profile hprofile hname => absurd hname (hfree profile hprofile provider List.mem_cons_self)⟩

/-- A profile is inserted and has no credentials yet. -/
theorem SeedRun.of_created {provider : LegacyProviderConfig} {legacy : List LegacyProviderConfig}
    {s : BootstrapWorld} {tr : List (Step BootstrapStore)} {profile : ProviderProfile}
    (hfree : NamesFree (provider :: legacy) s) (hid : s.profiles.find? profile.id = none)
    (hbare : profile.auth = .obj []) (hauth : tr.countP setsAuth = 0) (hprofile : tr.any createsProfile = true)
    (haccount : tr.any writesAccount = false) :
    SeedRun keys (provider :: legacy) s { s with profiles := s.profiles.insert profile } tr where
  kept _ h := (Table.mem_insert_of_fresh hid).2 (.inl h)
  users := rfl
  no_account := haccount
  idle h := by
    rw [hprofile] at h
    cases h
  created _ := ⟨profile, (Table.mem_insert_of_fresh hid).2 (.inr rfl)⟩
  full h := by
    rw [hauth, List.length_cons] at h
    omega
  short _ := by
    refine ⟨provider, List.mem_cons_self, fun other hother hname => ?_⟩
    rcases (Table.mem_insert_of_fresh hid).1 hother with hother | rfl
    · exact absurd hname (hfree other hother provider List.mem_cons_self)
    · exact hbare

/-- The table with a profile that was inserted and then got its credentials. -/
theorem mem_insert_replace {profiles : Table ProviderProfile.id} {profile updated : ProviderProfile}
    (hid : profiles.find? profile.id = none) (hsame : updated.id = profile.id) {other : ProviderProfile} :
    other ∈ (profiles.insert profile).replace updated ↔ other ∈ profiles ∨ other = updated := by
  rw [Table.mem_replace, Table.mem_insert_of_fresh hid, hsame]
  constructor
  · rintro (⟨hother | rfl, hne⟩ | ⟨rfl, -⟩)
    · exact .inl hother
    · exact absurd rfl hne
    · exact .inr rfl
  · rintro (hother | rfl)
    · exact .inl ⟨.inl hother, Table.find?_eq_none_iff.1 hid other hother⟩
    · exact .inr ⟨rfl, profile, (Table.mem_insert_of_fresh hid).2 (.inr rfl), rfl⟩

/-- A provider is done, and the loop goes on with the others. -/
theorem SeedRun.cons {provider : LegacyProviderConfig} {legacy : List LegacyProviderConfig}
    {s s' : BootstrapWorld} (s₁ : BootstrapWorld) {tr : List (Step BootstrapStore)}
    (first : List (Step BootstrapStore)) {updated : ProviderProfile}
    (hprofiles : ∀ other, other ∈ s₁.profiles ↔ other ∈ s.profiles ∨ other = updated) (husers : s₁.users = s.users)
    (hname : updated.name = provider.name) {secret : EncryptedSecret} (hauth : updated.auth = secret.toValue)
    (hsecret : keys.decryptApiKey secret = .ok provider.apiKey) (hcount : first.countP setsAuth = 1)
    (hprofile : first.any createsProfile = true) (haccount : first.any writesAccount = false)
    (h : SeedRun keys legacy s₁ s' tr) : SeedRun keys (provider :: legacy) s s' (first ++ tr) where
  kept profile hmem := h.kept profile ((hprofiles profile).2 (.inl hmem))
  users := h.users.trans husers
  no_account := by rw [List.any_append, haccount, h.no_account, Bool.or_false]
  idle hidle := by
    rw [List.any_append, hprofile, Bool.true_or] at hidle
    cases hidle
  created _ := ⟨updated, h.kept updated ((hprofiles updated).2 (.inr rfl))⟩
  full hall := by
    rw [List.countP_append, hcount, List.length_cons] at hall
    refine List.forall_mem_cons.2 ⟨?_, h.full (by omega)⟩
    exact ⟨updated, h.kept updated ((hprofiles updated).2 (.inr rfl)), hname, secret, hauth, hsecret⟩
  short hmissing := by
    rw [List.countP_append, hcount, List.length_cons] at hmissing
    obtain ⟨other, hother, hbare⟩ := h.short (by omega)
    exact ⟨other, List.mem_cons_of_mem _ hother, hbare⟩

/-- The loop, stopped anywhere. -/
theorem seedProfiles_does {legacy : List LegacyProviderConfig}
    (hdistinct : (legacy.map LegacyProviderConfig.name).Nodup) {s : BootstrapWorld} (hfree : NamesFree legacy s)
    {tr : List (Step BootstrapStore)} {rest : Bootstrap Unit} (hdoes : (seedProfiles legacy).Does tr rest)
    (hsafe : (bootstrapWorld keys).Safe s tr) :
    SeedRun keys legacy s ((bootstrapWorld keys).after s tr) tr
      ∧ (rest = .pure () → tr.countP setsAuth = legacy.length) := by
  induction legacy generalizing s tr with
  | nil =>
      obtain ⟨rfl, rfl⟩ := Program.Does.of_pure hdoes
      exact ⟨.of_idle hfree rfl rfl rfl, fun _ => rfl⟩
  | cons provider legacy ih =>
      rcases Program.Does.of_perform hdoes with ⟨rfl, rfl⟩ | ⟨created, later, rfl, hcreated⟩
      · exact ⟨.of_idle hfree rfl rfl rfl, fun h => by cases h⟩
      rcases Program.Does.of_ofExcept hcreated with ⟨e, rfl, rfl, rfl⟩ | ⟨profile, rfl, hprofile⟩
      · exact ⟨.of_idle hfree rfl rfl rfl, fun h => by cases h⟩
      obtain ⟨⟨hid, -, hrow⟩, hsafe⟩ := hsafe
      have hbare : profile.auth = .obj [] := by rw [hrow]
      rcases Program.Does.of_perform hprofile with ⟨rfl, rfl⟩ | ⟨secret, later, rfl, hencrypted⟩
      · exact ⟨.of_created hfree hid hbare rfl rfl rfl, fun h => by cases h⟩
      obtain ⟨hsecret, hsafe⟩ := hsafe
      rcases Program.Does.of_perform hencrypted with ⟨rfl, rfl⟩ | ⟨answer, later, rfl, hanswered⟩
      · exact ⟨.of_created hfree hid hbare rfl rfl rfl, fun h => by cases h⟩
      rcases Program.Does.of_ofExcept hanswered with ⟨e, rfl, rfl, rfl⟩ | ⟨updated, rfl, hupdated⟩
      · exact ⟨.of_created hfree hid hbare rfl rfl rfl, fun h => by cases h⟩
      obtain ⟨⟨old, hold, hauth⟩, hsafe⟩ := hsafe
      obtain rfl : old = profile := by
        obtain ⟨hmem, hsame⟩ := Table.find?_eq_some_iff.1 hold
        rcases (Table.mem_insert_of_fresh hid).1 hmem with hold' | rfl
        · exact absurd hsame (Table.find?_eq_none_iff.1 hid old hold')
        · rfl
      have hmem : ∀ other, other ∈ (s.profiles.insert old).replace updated ↔ other ∈ s.profiles ∨ other = updated :=
        fun other => mem_insert_replace hid (by rw [hauth])
      have hname : updated.name = provider.name := by rw [hauth, hrow]
      obtain ⟨hfresh, hdistinct⟩ := List.nodup_cons.1 hdistinct
      let seeded : BootstrapWorld := { s with profiles := (s.profiles.insert old).replace updated }
      have hfree' : NamesFree legacy seeded := by
        intro other hother provider' hprovider'
        rcases (hmem other).1 hother with hother | rfl
        · exact hfree other hother provider' (List.mem_cons_of_mem _ hprovider')
        · rw [hname]
          intro hsame
          exact hfresh (hsame ▸ List.mem_map_of_mem hprovider')
      obtain ⟨hrun, hended⟩ := ih hdistinct hfree' hupdated hsafe
      refine ⟨SeedRun.cons seeded [_, _, _] hmem rfl hname (by rw [hauth]) hsecret rfl rfl rfl hrun, fun h => ?_⟩
      rw [List.length_cons, ← hended h]
      simp [List.countP_cons, setsAuth]

/-- The profiles that startups leave: none, those of all providers, or with one missing. -/
def ProfilesShape (keys : BootstrapKeys) (legacy : List LegacyProviderConfig) (s : BootstrapWorld) : Prop :=
  s.profiles.rows = [] ∨ Seeded keys legacy s ∨ HalfSeeded legacy s

/-- No startup has stopped between the first profile and the last credentials. -/
def ProfilesGood (keys : BootstrapKeys) (legacy : List LegacyProviderConfig) (s : BootstrapWorld) : Prop :=
  s.profiles.rows = [] ∨ Seeded keys legacy s

/-- What a program that writes profiles does to a database, when it is stopped anywhere. -/
structure ProfilesRun (keys : BootstrapKeys) (legacy : List LegacyProviderConfig) (s s' : BootstrapWorld)
    (tr : List (Step BootstrapStore)) : Prop where
  users : s'.users = s.users
  no_account : tr.any writesAccount = false
  shape : ProfilesShape keys legacy s → ProfilesShape keys legacy s'
  good : ProfilesShape keys legacy s →
    (ProfilesGood keys legacy s' ↔ ProfilesGood keys legacy s ∧ WholeProfiles legacy tr)

theorem seeded_congr {legacy : List LegacyProviderConfig} {s s' : BootstrapWorld} (h : s'.profiles = s.profiles) :
    Seeded keys legacy s' ↔ Seeded keys legacy s := by
  simp only [Seeded, HasCredentials, h]

theorem profilesShape_congr {legacy : List LegacyProviderConfig} {s s' : BootstrapWorld}
    (h : s'.profiles = s.profiles) : ProfilesShape keys legacy s' ↔ ProfilesShape keys legacy s := by
  simp only [ProfilesShape, HalfSeeded, seeded_congr h, h]

theorem profilesGood_congr {legacy : List LegacyProviderConfig} {s s' : BootstrapWorld}
    (h : s'.profiles = s.profiles) : ProfilesGood keys legacy s' ↔ ProfilesGood keys legacy s := by
  simp only [ProfilesGood, seeded_congr h, h]

/-- The profiles stay as they are. -/
theorem ProfilesRun.of_same {legacy : List LegacyProviderConfig} {s s' : BootstrapWorld}
    {tr : List (Step BootstrapStore)} (hprofiles : s'.profiles = s.profiles) (husers : s'.users = s.users)
    (haccount : tr.any writesAccount = false) (hprofile : tr.any createsProfile = false) :
    ProfilesRun keys legacy s s' tr where
  users := husers
  no_account := haccount
  shape := (profilesShape_congr hprofiles).2
  good _ := by rw [profilesGood_congr hprofiles, and_iff_left (wholeProfiles_of_idle hprofile)]

/-- The loop fills an empty table. -/
theorem SeedRun.profilesRun {legacy : List LegacyProviderConfig} {s s' : BootstrapWorld}
    {tr : List (Step BootstrapStore)} (hempty : s.profiles.rows = []) (h : SeedRun keys legacy s s' tr) :
    ProfilesRun keys legacy s s' tr := by
  cases hcreated : tr.any createsProfile with
  | false => exact .of_same (h.idle hcreated) h.users h.no_account hcreated
  | true =>
      obtain ⟨profile, hprofile⟩ := h.created hcreated
      have hfilled : s'.profiles.rows ≠ [] := List.ne_nil_of_mem hprofile
      by_cases hall : tr.countP setsAuth = legacy.length
      · have hseeded := h.full hall
        refine ⟨h.users, h.no_account, fun _ => .inr (.inl hseeded), fun _ => ?_⟩
        exact ⟨fun _ => ⟨.inl hempty, fun _ => hall⟩, fun _ => .inr hseeded⟩
      · have hhalf := h.short hall
        refine ⟨h.users, h.no_account, fun _ => .inr (.inr hhalf), fun _ => ?_⟩
        constructor
        · rintro (hnone | hseeded)
          · exact absurd hnone hfilled
          · exact absurd hseeded hhalf.not_seeded
        · rintro ⟨-, hwhole⟩
          exact absurd (hwhole hcreated) hall

/-- `bootstrap_provider_profiles`, stopped anywhere. -/
theorem bootstrapProviderProfiles_does {legacy : List LegacyProviderConfig}
    (hdistinct : (legacy.map LegacyProviderConfig.name).Nodup) {s : BootstrapWorld}
    {tr : List (Step BootstrapStore)} {rest : Bootstrap Unit}
    (hdoes : (bootstrapProviderProfiles legacy).Does tr rest) (hsafe : (bootstrapWorld keys).Safe s tr) :
    ProfilesRun keys legacy s ((bootstrapWorld keys).after s tr) tr
      ∧ (rest = .pure () → WholeProfiles legacy tr ∧ (ProfilesGood keys legacy ((bootstrapWorld keys).after s tr) →
        Seeded keys legacy ((bootstrapWorld keys).after s tr))) := by
  rcases Program.Does.of_perform hdoes with ⟨rfl, rfl⟩ | ⟨listed, later, rfl, hlisted⟩
  · exact ⟨.of_same rfl rfl rfl rfl, fun h => by cases h⟩
  rcases Program.Does.of_ofExcept hlisted with ⟨e, rfl, rfl, rfl⟩ | ⟨profiles, rfl, hprofiles⟩
  · exact ⟨.of_same rfl rfl rfl rfl, fun h => by cases h⟩
  obtain ⟨hperm, hsafe⟩ := hsafe
  have hperm : profiles.Perm s.profiles.rows := hperm
  cases profiles with
  | nil =>
      have hempty : s.profiles.rows = [] := List.nil_perm.1 hperm
      have hfree : NamesFree legacy s := by
        intro profile hprofile
        rw [Table.mem_iff, hempty] at hprofile
        cases hprofile
      obtain ⟨hrun, hended⟩ := seedProfiles_does hdistinct hfree hprofiles hsafe
      obtain ⟨husers, hnoaccount, hshape, hgood⟩ := hrun.profilesRun hempty
      have hwhole := @wholeProfiles_cons legacy ⟨.listProfiles, .ok []⟩ rfl rfl later
      refine ⟨⟨husers, hnoaccount, hshape, fun hs => (hgood hs).trans (and_congr_right' hwhole.symm)⟩, fun h => ?_⟩
      exact ⟨hwhole.2 fun _ => hended h, fun _ => hrun.full (hended h)⟩
  | cons profile profiles =>
      obtain ⟨rfl, rfl⟩ := Program.Does.of_pure hprofiles
      refine ⟨.of_same rfl rfl rfl rfl, fun _ =>
        ⟨wholeProfiles_of_idle rfl, fun hgood => hgood.resolve_left ?_⟩⟩
      intro hempty
      rw [show ((bootstrapWorld keys).after s _).profiles.rows = s.profiles.rows from rfl] at hempty
      rw [hempty] at hperm
      exact absurd hperm.length_eq (by simp)

end Profiles

/-! ## The account -/

section Admin

variable {keys : BootstrapKeys} {email password : String}

/-- The accounts that startups leave: none, or the one of the admin, with the password or without one. -/
def AdminShape (keys : BootstrapKeys) (email password : String) (s : BootstrapWorld) : Prop :=
  s.users.rows = [] ∨ ∃ user, s.users.rows = [user] ∧ user.email = email
    ∧ (user.passwordHash = none ∨ HasPassword keys password user)

/-- No startup has stopped between the account and its password. -/
def AdminGood (keys : BootstrapKeys) (email password : String) (s : BootstrapWorld) : Prop :=
  s.users.rows = [] ∨ ∃ user, s.users.rows = [user] ∧ user.email = email ∧ HasPassword keys password user

/-- What a program that writes the account does to a database, when it is stopped anywhere. -/
structure AdminRun (keys : BootstrapKeys) (email password : String) (s s' : BootstrapWorld)
    (tr : List (Step BootstrapStore)) : Prop where
  profiles : s'.profiles = s.profiles
  no_profile : tr.any createsProfile = false
  no_auth : tr.countP setsAuth = 0
  shape : AdminShape keys email password s'
  good : AdminGood keys email password s' ↔ AdminGood keys email password s ∧ WholeAdmin tr

/-- The accounts stay as they are. -/
theorem AdminRun.of_same {s s' : BootstrapWorld} {tr : List (Step BootstrapStore)}
    (hs : AdminShape keys email password s) (husers : s'.users = s.users) (hprofiles : s'.profiles = s.profiles)
    (hprofile : tr.any createsProfile = false) (hauth : tr.countP setsAuth = 0)
    (huser : tr.any createsUser = false) : AdminRun keys email password s s' tr where
  profiles := hprofiles
  no_profile := hprofile
  no_auth := hauth
  shape := by rwa [AdminShape, husers]
  good := by rw [AdminGood, AdminGood, husers, and_iff_left (wholeAdmin_of_idle huser)]

/-- The account is inserted, and its password is set or not. -/
theorem AdminRun.of_created {s s' : BootstrapWorld} {tr : List (Step BootstrapStore)} {user : User}
    (hnone : s.users.rows = []) (hone : s'.users.rows = [user]) (hemail : user.email = email)
    (hprofiles : s'.profiles = s.profiles) (hprofile : tr.any createsProfile = false)
    (hauth : tr.countP setsAuth = 0) (huser : tr.any createsUser = true)
    (hpassword : tr.any setsPassword = true ∧ HasPassword keys password user
      ∨ tr.any setsPassword = false ∧ user.passwordHash = none) :
    AdminRun keys email password s s' tr where
  profiles := hprofiles
  no_profile := hprofile
  no_auth := hauth
  shape := .inr ⟨user, hone, hemail, (hpassword.imp And.right And.right).symm⟩
  good := by
    rcases hpassword with ⟨hset, hhas⟩ | ⟨hunset, hbare⟩
    · exact ⟨fun _ => ⟨.inl hnone, fun _ => hset⟩, fun _ => .inr ⟨user, hone, hemail, hhas⟩⟩
    · constructor
      · rintro (hempty | ⟨other, hother, -, hash, hhash, -⟩)
        · rw [hone] at hempty
          cases hempty
        · obtain rfl : user = other := (List.cons.inj (hone.symm.trans hother)).1
          rw [hbare] at hhash
          cases hhash
      · rintro ⟨-, hwhole⟩
        have hset := hwhole huser
        rw [hunset] at hset
        cases hset

/-- A statement before that writes no profile and no account. -/
theorem AdminRun.cons {s s₁ s' : BootstrapWorld} {tr : List (Step BootstrapStore)} {step : Step BootstrapStore}
    (h : AdminRun keys email password s₁ s' tr) (hprofiles : s₁.profiles = s.profiles) (husers : s₁.users = s.users)
    (hprofile : createsProfile step = false) (hauth : setsAuth step = false) (huser : createsUser step = false)
    (hpassword : setsPassword step = false) : AdminRun keys email password s s' (step :: tr) where
  profiles := h.profiles.trans hprofiles
  no_profile := by rw [List.any_cons, hprofile, h.no_profile, Bool.or_false]
  no_auth := by simp [hauth, h.no_auth]
  shape := h.shape
  good := by
    have hwhole : WholeAdmin (step :: tr) ↔ WholeAdmin tr := by simp [WholeAdmin, huser, hpassword]
    rw [h.good, hwhole, AdminGood, AdminGood, husers]

/-- The account and its password, stopped anywhere. -/
theorem createAdmin_does {org : OrganizationRow} {s : BootstrapWorld} (hs : AdminShape keys email password s)
    {tr : List (Step BootstrapStore)} {rest : Bootstrap Unit} (hdoes : (createAdmin email password org).Does tr rest)
    (hsafe : (bootstrapWorld keys).Safe s tr) :
    AdminRun keys email password s ((bootstrapWorld keys).after s tr) tr
      ∧ (rest = .pure () → WholeAdmin tr ∧ ((bootstrapWorld keys).after s tr).users.rows ≠ []) := by
  rcases Program.Does.of_perform hdoes with ⟨rfl, rfl⟩ | ⟨hash, later, rfl, hhashed⟩
  · exact ⟨.of_same hs rfl rfl rfl rfl rfl, fun h => by cases h⟩
  obtain ⟨hverify, hsafe⟩ := hsafe
  rcases Program.Does.of_perform hhashed with ⟨rfl, rfl⟩ | ⟨created, later, rfl, hcreated⟩
  · exact ⟨.of_same hs rfl rfl rfl rfl rfl, fun h => by cases h⟩
  rcases Program.Does.of_ofExcept hcreated with ⟨e, rfl, rfl, rfl⟩ | ⟨user, rfl, huser⟩
  · exact ⟨.of_same hs rfl rfl rfl rfl rfl, fun h => by cases h⟩
  obtain ⟨⟨hid, hunique, hrow⟩, hsafe⟩ := hsafe
  have hid : s.users.find? user.id = none := hid
  have hunique : ∀ other ∈ s.users.rows, other.email ≠ email := hunique
  -- A second account with the e-mail is refused.
  have hnone : s.users.rows = [] := by
    rcases hs with hnone | ⟨other, hother, hsame, -⟩
    · exact hnone
    · exact absurd hsame (hunique other (by rw [hother]; exact List.mem_cons_self))
  have hone : (s.users.insert user).rows = [user] := by
    rw [Table.rows_insert_of_fresh hid, hnone, List.nil_append]
  have hemail : user.email = email := by rw [hrow]
  have hbare : user.passwordHash = none := by rw [hrow]
  rcases Program.Does.of_perform huser with ⟨rfl, rfl⟩ | ⟨executed, later, rfl, hexecuted⟩
  · exact ⟨.of_created hnone hone hemail rfl rfl rfl rfl (.inr ⟨rfl, hbare⟩), fun h => by cases h⟩
  cases executed with
  | error e =>
      obtain ⟨rfl, rfl⟩ := Program.Does.of_throw hexecuted
      exact ⟨.of_created hnone hone hemail rfl rfl rfl rfl (.inr ⟨rfl, hbare⟩), fun h => by cases h⟩
  | ok done =>
      obtain ⟨rfl, rfl⟩ := Program.Does.of_pure hexecuted
      have hset : ((s.users.insert user).map (User.withPasswordHash hash user.id) fun _ => rfl).rows
          = [user.withPasswordHash hash user.id] := by
        exact (congrArg (List.map (User.withPasswordHash hash user.id)) hone).trans (List.map_singleton ..)
      refine ⟨.of_created hnone hset hemail rfl rfl rfl rfl (.inl ⟨rfl, hash, ?_, hverify⟩), fun _ => ?_⟩
      · simp [User.withPasswordHash]
      · refine ⟨fun _ => rfl, fun hempty => ?_⟩
        have hempty : ((s.users.insert user).map (User.withPasswordHash hash user.id) fun _ => rfl).rows = [] := hempty
        rw [hset] at hempty
        cases hempty

/-- `bootstrap_admin_user`, stopped anywhere. -/
theorem bootstrapAdminUser_does {s : BootstrapWorld} (hs : AdminShape keys email password s)
    {tr : List (Step BootstrapStore)} {rest : Bootstrap Unit}
    (hdoes : (bootstrapAdminUser email password).Does tr rest) (hsafe : (bootstrapWorld keys).Safe s tr) :
    AdminRun keys email password s ((bootstrapWorld keys).after s tr) tr
      ∧ (rest = .pure () → WholeAdmin tr ∧ ((bootstrapWorld keys).after s tr).users.rows ≠ []) := by
  rcases Program.Does.of_perform hdoes with ⟨rfl, rfl⟩ | ⟨found, later, rfl, hfound⟩
  · exact ⟨.of_same hs rfl rfl rfl rfl rfl, fun h => by cases h⟩
  cases found with
  | ok user =>
      obtain ⟨rfl, rfl⟩ := Program.Does.of_pure hfound
      obtain ⟨⟨huser, -⟩, -⟩ := hsafe
      exact ⟨.of_same hs rfl rfl rfl rfl rfl, fun _ =>
        ⟨wholeAdmin_of_idle rfl, List.ne_nil_of_mem huser⟩⟩
  | error e =>
      obtain ⟨-, hsafe⟩ := hsafe
      rcases Program.Does.of_perform hfound with ⟨rfl, rfl⟩ | ⟨listed, later, rfl, hlisted⟩
      · exact ⟨.of_same hs rfl rfl rfl rfl rfl, fun h => by cases h⟩
      obtain ⟨-, hsafe⟩ := hsafe
      rcases Program.Does.of_ofExcept hlisted with ⟨e', rfl, rfl, rfl⟩ | ⟨existing, rfl, hexisting⟩
      · exact ⟨.of_same hs rfl rfl rfl rfl rfl, fun h => by cases h⟩
      cases existing with
      | cons org orgs =>
          obtain ⟨hrun, hended⟩ := createAdmin_does hs hexisting hsafe
          exact ⟨(hrun.cons rfl rfl rfl rfl rfl rfl).cons rfl rfl rfl rfl rfl rfl, hended⟩
      | nil =>
          rcases Program.Does.of_perform hexisting with ⟨rfl, rfl⟩ | ⟨created, later, rfl, hcreated⟩
          · exact ⟨.of_same hs rfl rfl rfl rfl rfl, fun h => by cases h⟩
          rcases Program.Does.of_ofExcept hcreated with ⟨e', rfl, rfl, rfl⟩ | ⟨org, rfl, horg⟩
          · exact ⟨.of_same hs rfl rfl rfl rfl rfl, fun h => by cases h⟩
          obtain ⟨-, hsafe⟩ := hsafe
          have hs' : AdminShape keys email password { s with organizations := s.organizations.insert org } := hs
          obtain ⟨hrun, hended⟩ := createAdmin_does hs' horg hsafe
          refine ⟨AdminRun.cons ?_ rfl rfl rfl rfl rfl rfl, hended⟩
          exact AdminRun.cons (hrun.cons rfl rfl rfl rfl rfl rfl) rfl rfl rfl rfl rfl rfl

end Admin

/-! ## Startups -/

section Startup

variable {keys : BootstrapKeys} {legacy : List LegacyProviderConfig} {email password : String}

/-- A startup is not stopped where it leaves something half written: between its first profile and its last
    credentials, or between the account and its password. -/
def StopsWhole (legacy : List LegacyProviderConfig) (tr : List (Step BootstrapStore)) : Prop :=
  WholeProfiles legacy tr ∧ WholeAdmin tr

/-- What startups leave, stopped anywhere. -/
def StartupShape (keys : BootstrapKeys) (legacy : List LegacyProviderConfig) (email password : String)
    (s : BootstrapWorld) : Prop :=
  ProfilesShape keys legacy s ∧ AdminShape keys email password s

/-- What startups leave that stop whole. -/
def StartupGood (keys : BootstrapKeys) (legacy : List LegacyProviderConfig) (email password : String)
    (s : BootstrapWorld) : Prop :=
  ProfilesGood keys legacy s ∧ AdminGood keys email password s

theorem any_writesAccount {tr : List (Step BootstrapStore)} (h : tr.any writesAccount = false) :
    tr.any createsUser = false ∧ tr.any setsPassword = false := by
  simp only [List.any_eq_false, writesAccount, Bool.or_eq_true, not_or] at h
  exact ⟨List.any_eq_false.2 fun step hstep => (h step hstep).1,
    List.any_eq_false.2 fun step hstep => (h step hstep).2⟩

/-- The two functions write to different tables. -/
theorem stopsWhole_append {s s₁ s' : BootstrapWorld} {first second : List (Step BootstrapStore)}
    (hprofiles : ProfilesRun keys legacy s s₁ first) (hadmin : AdminRun keys email password s₁ s' second) :
    StopsWhole legacy (first ++ second) ↔ WholeProfiles legacy first ∧ WholeAdmin second := by
  obtain ⟨huser, hpassword⟩ := any_writesAccount hprofiles.no_account
  simp only [StopsWhole, WholeProfiles, WholeAdmin, List.any_append, List.countP_append, hadmin.no_profile,
    hadmin.no_auth, huser, hpassword, Bool.or_false, Bool.false_or, Nat.add_zero]

theorem StartupShape.of_runs {s s₁ s' : BootstrapWorld} {first second : List (Step BootstrapStore)}
    (hs : StartupShape keys legacy email password s) (hprofiles : ProfilesRun keys legacy s s₁ first)
    (hadmin : AdminRun keys email password s₁ s' second) :
    StartupShape keys legacy email password s'
      ∧ (StartupGood keys legacy email password s'
        ↔ StartupGood keys legacy email password s ∧ StopsWhole legacy (first ++ second)) := by
  refine ⟨⟨(profilesShape_congr hadmin.profiles).2 (hprofiles.shape hs.1), hadmin.shape⟩, ?_⟩
  have hadmin₁ : AdminGood keys email password s₁ ↔ AdminGood keys email password s := by
    rw [AdminGood, AdminGood, hprofiles.users]
  rw [StartupGood, profilesGood_congr hadmin.profiles, hprofiles.good hs.1, hadmin.good, hadmin₁,
    stopsWhole_append hprofiles hadmin, StartupGood]
  exact and_and_and_comm

/-- The shape leaves no other way to be as it should be. -/
theorem StartupShape.good_of_bootstrapped {s : BootstrapWorld} (hs : StartupShape keys legacy email password s)
    (h : Bootstrapped keys legacy email password s) : StartupGood keys legacy email password s := by
  obtain ⟨⟨user, huser, -, hpassword⟩, hseeded⟩ := h
  rw [Table.mem_iff] at huser
  refine ⟨.inr hseeded, ?_⟩
  rcases hs.2 with hnone | ⟨other, hone, hemail, -⟩
  · exact .inl hnone
  · rw [hone, List.mem_singleton] at huser
    exact .inr ⟨other, hone, hemail, huser ▸ hpassword⟩

/-- A startup, stopped anywhere. -/
theorem startup_does (hdistinct : (legacy.map LegacyProviderConfig.name).Nodup) {s : BootstrapWorld}
    (hs : StartupShape keys legacy email password s) {tr : List (Step BootstrapStore)} {rest : Bootstrap Unit}
    (hdoes : (startup legacy email password).Does tr rest) (hsafe : (bootstrapWorld keys).Safe s tr) :
    StartupShape keys legacy email password ((bootstrapWorld keys).after s tr)
      ∧ (StartupGood keys legacy email password ((bootstrapWorld keys).after s tr)
        ↔ StartupGood keys legacy email password s ∧ StopsWhole legacy tr) := by
  rcases Program.Does.of_bind hdoes with ⟨left, hleft, -⟩ | ⟨done, first, second, rfl, hfirst, hsecond⟩
  · obtain ⟨hprofiles, -⟩ := bootstrapProviderProfiles_does hdistinct hleft hsafe
    have hadmin : AdminShape keys email password ((bootstrapWorld keys).after s tr) := by
      rw [AdminShape, hprofiles.users]
      exact hs.2
    have hidle : AdminRun keys email password ((bootstrapWorld keys).after s tr) ((bootstrapWorld keys).after s tr)
        [] := .of_same hadmin rfl rfl rfl rfl rfl
    have hruns := hs.of_runs hprofiles hidle
    rwa [List.append_nil] at hruns
  · obtain ⟨hsafe₁, hsafe₂⟩ := Monitor.safe_append.1 hsafe
    obtain ⟨hprofiles, -⟩ := bootstrapProviderProfiles_does hdistinct hfirst hsafe₁
    have hadmin : AdminShape keys email password ((bootstrapWorld keys).after s first) := by
      rw [AdminShape, hprofiles.users]
      exact hs.2
    obtain ⟨hrun, -⟩ := bootstrapAdminUser_does hadmin hsecond hsafe₂
    rw [Monitor.after_append]
    exact hs.of_runs hprofiles hrun

/-- A startup that ends well stops whole, and does what it is for where nothing was left half written. -/
theorem startup_ended (hdistinct : (legacy.map LegacyProviderConfig.name).Nodup) {s : BootstrapWorld}
    (hs : StartupShape keys legacy email password s) {tr : List (Step BootstrapStore)}
    (hdoes : (startup legacy email password).Does tr (.pure ())) (hsafe : (bootstrapWorld keys).Safe s tr) :
    StopsWhole legacy tr ∧ (StartupGood keys legacy email password ((bootstrapWorld keys).after s tr) →
      Bootstrapped keys legacy email password ((bootstrapWorld keys).after s tr)) := by
  rcases Program.Does.of_bind hdoes with ⟨left, -, hleft⟩ | ⟨done, first, second, rfl, hfirst, hsecond⟩
  · -- Nothing is left of the first function.
    cases left <;> cases hleft
  · obtain ⟨hsafe₁, hsafe₂⟩ := Monitor.safe_append.1 hsafe
    obtain ⟨hprofiles, hended⟩ := bootstrapProviderProfiles_does hdistinct hfirst hsafe₁
    have hadmin : AdminShape keys email password ((bootstrapWorld keys).after s first) := by
      rw [AdminShape, hprofiles.users]
      exact hs.2
    obtain ⟨hrun, hended'⟩ := bootstrapAdminUser_does hadmin hsecond hsafe₂
    obtain ⟨hwhole, hseeded⟩ := hended rfl
    obtain ⟨hwhole', husers⟩ := hended' rfl
    refine ⟨(stopsWhole_append hprofiles hrun).2 ⟨hwhole, hwhole'⟩, ?_⟩
    rw [Monitor.after_append]
    rintro ⟨hgood, hgood'⟩
    obtain ⟨user, hone, hemail, hpassword⟩ := hgood'.resolve_left husers
    refine ⟨⟨user, ?_, hemail, hpassword⟩, ?_⟩
    · rw [Table.mem_iff, hone]
      exact List.mem_cons_self
    · exact (seeded_congr hrun.profiles).2 (hseeded ((profilesGood_congr hrun.profiles).1 hgood))

/-- Startups stop anywhere, and then one ends well: the database is as it should be exactly when none of them
    stopped where it left something half written. -/
theorem startup_converges_iff (keys : BootstrapKeys) (legacy : List LegacyProviderConfig)
    (hdistinct : (legacy.map LegacyProviderConfig.name).Nodup) (email password : String)
    (starts : List (List (Step BootstrapStore)))
    (hstarts : (bootstrapWorld keys).Restarts (startup legacy email password) .migrated starts)
    (last : List (Step BootstrapStore)) (hlast : (startup legacy email password).Does last (.pure ()))
    (hsafe : (bootstrapWorld keys).Safe ((bootstrapWorld keys).afterStarts .migrated starts) last) :
    Bootstrapped keys legacy email password
        ((bootstrapWorld keys).after ((bootstrapWorld keys).afterStarts .migrated starts) last)
      ↔ ∀ tr ∈ starts, StopsWhole legacy tr := by
  have hmigrated : StartupShape keys legacy email password .migrated := ⟨.inl rfl, .inl rfl⟩
  have hgood : StartupGood keys legacy email password .migrated := ⟨.inl rfl, .inl rfl⟩
  obtain ⟨hshape, hkept⟩ := Monitor.Restarts.kept_iff
    (fun s tr rest hs hdoes hsafe => startup_does hdistinct hs hdoes hsafe) hmigrated hstarts
  obtain ⟨hshape', hkept'⟩ := startup_does hdistinct hshape hlast hsafe
  obtain ⟨hwhole, hended⟩ := startup_ended hdistinct hshape hlast hsafe
  calc Bootstrapped keys legacy email password _
      ↔ StartupGood keys legacy email password
          ((bootstrapWorld keys).after ((bootstrapWorld keys).afterStarts .migrated starts) last) :=
        ⟨hshape'.good_of_bootstrapped, hended⟩
    _ ↔ StartupGood keys legacy email password ((bootstrapWorld keys).afterStarts .migrated starts) :=
        hkept'.trans (and_iff_left hwhole)
    _ ↔ ∀ tr ∈ starts, StopsWhole legacy tr := hkept.trans (and_iff_right hgood)

end Startup

/-! ## Two startups -/

/-- Secrets that are their plaintext. -/
def openKeys : BootstrapKeys := ⟨sampleArgon2, fun secret => .ok secret.ciphertext⟩

/-- One configured provider. -/
def openAiLegacy : LegacyProviderConfig := ⟨"openai", "openai", "https://api.openai.com/v1", "sk-legacy"⟩

/-- Its profile. -/
def openAiProfile (auth : Json) : ProviderProfile :=
  ⟨1, "openai", "openai", some "https://api.openai.com/v1", false, auth, true⟩

/-- The organization that the startup creates. -/
def defaultOrganization : OrganizationRow := ⟨⟨2, none, none⟩, "Default Organization"⟩

/-- The account as it is inserted. -/
def freshAdmin : User :=
  ⟨⟨3, some 2, "admin@example.com", some "Admin", "super_admin", none, none, 0⟩, none, none, none, false⟩

/-- The steps up to the account, on a database without one. -/
def untilAdmin : List (Step BootstrapStore) :=
  [⟨.getUserByEmail "admin@example.com", .error .notFound⟩,
    ⟨.listOrganizations, .ok []⟩,
    ⟨.createOrganization "Default Organization" none, .ok defaultOrganization⟩,
    ⟨.hashPassword "hunter2", "$argon2id$hunter2"⟩,
    ⟨.createUser "admin@example.com" (some "Admin") .superAdmin (some 2), .ok freshAdmin⟩]

theorem untilAdmin_safe (profiles : Table ProviderProfile.id) :
    (bootstrapWorld openKeys).Safe ⟨profiles, .empty, .empty⟩ untilAdmin := by
  have hnobody : ∀ user ∈ ([] : List User), user.email ≠ "admin@example.com" := fun _ h => absurd h List.not_mem_nil
  have hverify : sampleArgon2.verify "hunter2" "$argon2id$hunter2" = true := by decide
  exact ⟨hnobody, List.Perm.refl _, ⟨rfl, rfl⟩, hverify, ⟨rfl, hnobody, rfl⟩, trivial⟩

/-- A startup that nothing interrupts. -/
def wholeStartup : List (Step BootstrapStore) :=
  [⟨.listProfiles, .ok []⟩,
    ⟨.createProfile "openai" "openai" (some "https://api.openai.com/v1") false, .ok (openAiProfile (.obj []))⟩,
    ⟨.encryptApiKey "sk-legacy", ⟨"sk-legacy", ""⟩⟩,
    ⟨.setAuth 1 ⟨"sk-legacy", ""⟩, .ok (openAiProfile (EncryptedSecret.toValue ⟨"sk-legacy", ""⟩))⟩]
  ++ untilAdmin ++ [⟨.setPasswordHash "$argon2id$hunter2" 3, .ok ()⟩]

/-- A startup that fails at its first statement, and one that does everything. -/
theorem startup_converges_iff_sample :
    Bootstrapped openKeys [openAiLegacy] "admin@example.com" "hunter2"
      ((bootstrapWorld openKeys).after
        ((bootstrapWorld openKeys).afterStarts .migrated [[⟨.listProfiles, .error (.database "timeout")⟩]])
        wholeStartup) := by
  refine (startup_converges_iff openKeys [openAiLegacy] (by decide) "admin@example.com" "hunter2"
    [[⟨.listProfiles, .error (.database "timeout")⟩]] ?_ wholeStartup ?_ ?_).2 ?_
  · exact ⟨⟨⟨_, .op (.stop _)⟩, trivial, trivial⟩, trivial⟩
  · exact .op (.op (.op (.op (.op (.op (.op (.op (.op (.op (.stop _))))))))))
  · refine Monitor.safe_append.2 ⟨Monitor.safe_append.2 ⟨?_, untilAdmin_safe _⟩, trivial, trivial⟩
    have hnone : ∀ profile ∈ ([] : List ProviderProfile), profile.name ≠ "openai" :=
      fun _ h => absurd h List.not_mem_nil
    exact ⟨List.Perm.refl _, ⟨rfl, hnone, rfl⟩, rfl, ⟨openAiProfile (.obj []), rfl, rfl⟩, trivial⟩
  · intro tr htr
    obtain rfl := List.mem_singleton.1 htr
    exact ⟨wholeProfiles_of_idle rfl, wholeAdmin_of_idle rfl⟩

/-- A startup that is stopped before it sets the password, and one that finds the account. -/
theorem startup_not_convergent :
    ¬ ∀ (keys : BootstrapKeys) (legacy : List LegacyProviderConfig),
      (legacy.map LegacyProviderConfig.name).Nodup → ∀ (email password : String)
        (starts : List (List (Step BootstrapStore))),
      (bootstrapWorld keys).Restarts (startup legacy email password) .migrated starts →
      ∀ last : List (Step BootstrapStore), (startup legacy email password).Does last (.pure ()) →
      (bootstrapWorld keys).Safe ((bootstrapWorld keys).afterStarts .migrated starts) last →
      Bootstrapped keys legacy email password
        ((bootstrapWorld keys).after ((bootstrapWorld keys).afterStarts .migrated starts) last) := by
  intro h
  have hend := h openKeys [] (by decide) "admin@example.com" "hunter2" [⟨.listProfiles, .ok []⟩ :: untilAdmin] ?_
    [⟨.listProfiles, .ok []⟩, ⟨.getUserByEmail "admin@example.com", .ok freshAdmin⟩] ?_ ?_
  · obtain ⟨⟨user, huser, -, hash, hhash, -⟩, -⟩ := hend
    obtain rfl : user = freshAdmin := List.mem_singleton.1 huser
    cases hhash
  · have hstopped : (startup [] "admin@example.com" "hunter2").Does (⟨.listProfiles, .ok []⟩ :: untilAdmin) _ :=
      .op (.op (.op (.op (.op (.op (.stop _))))))
    exact ⟨⟨⟨_, hstopped⟩, List.Perm.refl _, untilAdmin_safe _⟩, trivial⟩
  · exact .op (.op (.stop _))
  · exact ⟨List.Perm.refl _, ⟨List.mem_singleton.2 rfl, rfl⟩, trivial⟩

end Godwit
