import Mathlib.Logic.Equiv.Basic
import Godwit.Lib.Interleaving
import Godwit.Admin.ProviderProfiles

set_option autoImplicit false

/-! # The credentials that the router reads

Rows are created, updated and given keys by requests that run at the same time, each in several statements
that may fail. Whatever they do to each other, the router resolves every row to the key that was stored for
it last, and the listing says truly which rows have one. -/

namespace Godwit

section

variable {crypto : CredentialCrypto} {texts : CredentialTexts} {masterKey : MasterKey}

/-! ## What an auth column holds -/

/-- The column holds this key, or none. -/
def AuthHolds (crypto : CredentialCrypto) (masterKey : MasterKey) (auth : Json) : Option String → Prop
  | none => emptyAuth auth = true
  | some key => ∃ nonce, auth = (encryptApiKey crypto masterKey nonce key).toValue

theorem toValue_eq (secret : EncryptedSecret) :
    secret.toValue = .obj [("ciphertext", .str secret.ciphertext), ("nonce", .str secret.nonce)] := by
  simp [EncryptedSecret.toValue, Json.object, objectFields, setField]
  decide

theorem fromValue_toValue (secret : EncryptedSecret) :
    EncryptedSecret.fromValue texts secret.toValue = .ok secret := by
  simp [toValue_eq, EncryptedSecret.fromValue, lookupField]

theorem AuthHolds.emptyAuth_eq {auth : Json} {key : Option String} (h : AuthHolds crypto masterKey auth key) :
    emptyAuth auth = !key.isSome := by
  cases key with
  | none => exact h
  | some key =>
      obtain ⟨nonce, rfl⟩ := h
      rw [toValue_eq]
      rfl

/-- A row resolves to the key that its column holds. -/
theorem resolveCredentials_of_holds {r : DbModelRouter} (hvault : r.vault = credentialVault crypto texts masterKey)
    {profile : ProviderProfile} {baseUrl : String} (hbase : profile.baseUrl = some baseUrl)
    {key : Option String} (h : AuthHolds crypto masterKey profile.auth key) :
    r.resolveCredentials profile = .ok ⟨baseUrl, key⟩ := by
  rw [DbModelRouter.resolveCredentials, hbase]
  dsimp only
  rw [h.emptyAuth_eq, hvault]
  cases key with
  | none => rfl
  | some key =>
      obtain ⟨nonce, hauth⟩ := h
      rw [hauth, credentialVault]
      dsimp only
      rw [fromValue_toValue]
      dsimp only
      rw [(decryptApiKey_eq_ok_iff crypto texts masterKey _ key).2 ⟨nonce, rfl⟩]
      rfl

/-! ## What a request does -/

/-- The operations of a request: its caller is a super admin, and it stores nothing but the key that it
    brings, encrypted. -/
def ProfileOpAllowed (crypto : CredentialCrypto) (masterKey : MasterKey) (r : ProfileRequest) (o : ProfileOp) : Prop :=
  Role.fromStr r.claims.role = some .superAdmin
    ∧ ∀ id auth, o = .setAuth id auth →
      ∃ key, r.apiKey = some key ∧ AuthHolds crypto masterKey auth (some key)

theorem ProfileOpAllowed.of_not_setAuth {r : ProfileRequest} {o : ProfileOp}
    (hadmin : Role.fromStr r.claims.role = some .superAdmin) (ho : ∀ id auth, o ≠ .setAuth id auth) :
    ProfileOpAllowed crypto masterKey r o :=
  ⟨hadmin, fun id auth heq => absurd heq (ho id auth)⟩

theorem role_of_checkSuperAdmin {claims : Claims} (h : checkSuperAdmin claims = .ok ()) :
    Role.fromStr claims.role = some .superAdmin := by
  unfold checkSuperAdmin at h
  split at h
  · cases h
  case h_2 role hrole =>
    split at h
    case isTrue => cases h
    case isFalse hadmin => rw [hrole, not_not.1 hadmin]

/-- What follows the check of the role, for those who pass it. -/
theorem only_of_superAdmin {r : ProfileRequest} {α : Type} {f : Unit → ProfileApp α}
    (hf : Role.fromStr r.claims.role = some .superAdmin → (f ()).Only (ProfileOpAllowed crypto masterKey r)) :
    (Program.ofExcept (checkSuperAdmin r.claims) >>= f).Only (ProfileOpAllowed crypto masterKey r) := by
  cases hcheck : checkSuperAdmin r.claims with
  | error e => exact trivial
  | ok done => exact hf (role_of_checkSuperAdmin hcheck)

theorem storeApiKey_only {r : ProfileRequest} (hadmin : Role.fromStr r.claims.role = some .superAdmin)
    (profile : ProviderProfileRow) :
    (storeApiKey crypto masterKey profile r.apiKey).Only (ProfileOpAllowed crypto masterKey r) := by
  cases hkey : r.apiKey with
  | none => exact trivial
  | some apiKey =>
      refine .perform (.of_not_setAuth hadmin fun _ _ => nofun) fun nonce => ?_
      refine .perform ⟨hadmin, fun id auth heq => ?_⟩ fun _ => .ofExcept _
      cases heq
      exact ⟨apiKey, hkey, nonce, rfl⟩

theorem ProfileRequest.serve_only (r : ProfileRequest) :
    (r.serve crypto masterKey).Only (ProfileOpAllowed crypto masterKey r) := by
  obtain ⟨claims, call⟩ := r
  cases call with
  | list =>
      refine .bind (only_of_superAdmin fun hadmin => ?_) fun _ => trivial
      exact .perform (.of_not_setAuth hadmin fun _ _ => nofun) fun _ => .bind (.ofExcept _) fun _ => trivial
  | create req =>
      refine .bind (only_of_superAdmin fun hadmin => ?_) fun _ => trivial
      refine .perform (.of_not_setAuth hadmin fun _ _ => nofun) fun _ => .bind (.ofExcept _) fun profile => ?_
      exact .bind (storeApiKey_only hadmin profile) fun _ => trivial
  | update id req =>
      refine .bind (only_of_superAdmin fun hadmin => ?_) fun _ => trivial
      refine .bind (.perform (.of_not_setAuth hadmin fun _ _ => nofun) fun _ => ?_) fun profile => ?_
      · exact .bind (.ofExcept _) fun _ => .perform (.of_not_setAuth hadmin fun _ _ => nofun) fun _ => .ofExcept _
      · exact .bind (storeApiKey_only hadmin profile) fun _ => trivial

/-! ## Histories -/

/-- The steps of the requests, in the order in which they were taken. -/
abbrev ProfileHistory := List (Nat × Step ProfileStore)

/-- The table after a history. -/
abbrev profilesAfter (s : ProfileWorld) (tr : ProfileHistory) : ProfileWorld :=
  profileWorld.after s (sharedSteps tr)

/-- What a step of a request makes of the keys: the one that it stores is the one that the request brings. -/
def keysAfterStep (requests : Nat → ProfileRequest) (keys : Uuid → Option String) :
    Nat × Step ProfileStore → Uuid → Option String
  | (i, ⟨.setAuth id _, .ok _⟩) => Function.update keys id (requests i).apiKey
  | _ => keys

/-- The key of each profile after a history. -/
def keysAfter (requests : Nat → ProfileRequest) (keys : Uuid → Option String) (tr : ProfileHistory) :
    Uuid → Option String :=
  tr.foldl (keysAfterStep requests) keys

/-- Every row holds its key, and ids without a row have none. -/
structure KeysStored (crypto : CredentialCrypto) (masterKey : MasterKey) (keys : Uuid → Option String)
    (s : ProfileWorld) : Prop where
  held : ∀ row ∈ s.profiles, AuthHolds crypto masterKey row.auth (keys row.id)
  absent : ∀ id, s.profiles.find? id = none → keys id = none

variable {requests : Nat → ProfileRequest} {keys : Uuid → Option String} {s : ProfileWorld}

/-- A row that is replaced keeps the table's ids. -/
theorem find?_replace_eq_none {row old : ProviderProfileRow} {id : Uuid}
    (hold : s.profiles.find? row.id = some old) :
    (s.profiles.replace row).find? id = none ↔ s.profiles.find? id = none := by
  by_cases hid : row.id = id
  · subst hid
    rw [Table.find?_replace_self hold, hold]
    simp
  · rw [Table.find?_replace_of_ne (t := s.profiles) hid]

theorem KeysStored.kept (h : KeysStored crypto masterKey keys s) {i : Nat} {step : Step ProfileStore}
    (haccepts : s.answers step.op step.answer)
    (hallowed : ProfileOpAllowed crypto masterKey (requests i) step.op) :
    KeysStored crypto masterKey (keysAfterStep requests keys (i, step)) (s.next step) := by
  obtain ⟨o, answer⟩ := step
  cases o with
  | drawNonce => exact h
  | list => exact h
  | get id => exact h
  | create name protocol baseUrl allowWildcard =>
      cases answer with
      | error e => exact h
      | ok row =>
          obtain ⟨hfresh, -, hrow⟩ := haccepts
          refine ⟨fun other hother => ?_, fun id hid => ?_⟩
          · rcases (Table.mem_insert_of_fresh hfresh).1 hother with hother | rfl
            · exact h.held other hother
            · -- a new row has no key, as its id had none
              show AuthHolds crypto masterKey other.auth (keys other.id)
              rw [h.absent other.id hfresh, hrow]
              rfl
          · refine h.absent id (Table.find?_eq_none_iff.2 fun other hother => ?_)
            exact Table.find?_eq_none_iff.1 hid other ((Table.mem_insert_of_fresh hfresh).2 (.inl hother))
  | update id baseUrl allowWildcard enabled =>
      cases answer with
      | error e => exact h
      | ok row =>
          obtain ⟨old, hold, hrow⟩ := haccepts
          obtain ⟨hmem, hid⟩ := Table.find?_eq_some_iff.1 hold
          have hsame : row.id = id := by rw [hrow]; exact hid
          refine ⟨fun other hother => ?_, fun id' hid' => ?_⟩
          · rcases Table.mem_replace.1 hother with ⟨hother, -⟩ | ⟨rfl, -⟩
            · exact h.held other hother
            · show AuthHolds crypto masterKey other.auth (keys other.id)
              rw [hrow]
              exact h.held old hmem
          · exact h.absent id' ((find?_replace_eq_none (by rw [hsame]; exact hold)).1 hid')
  | setAuth id auth =>
      cases answer with
      | error e => exact h
      | ok row =>
          obtain ⟨old, hold, hrow⟩ := haccepts
          obtain ⟨hmem, hid⟩ := Table.find?_eq_some_iff.1 hold
          have hsame : row.id = id := by rw [hrow]; exact hid
          obtain ⟨key, hkey, hholds⟩ := hallowed.2 id auth rfl
          refine ⟨fun other hother => ?_, fun id' hid' => ?_⟩
          · show AuthHolds crypto masterKey other.auth (Function.update keys id (requests i).apiKey other.id)
            rcases Table.mem_replace.1 hother with ⟨hother, hne⟩ | ⟨rfl, -⟩
            · rw [Function.update_of_ne (by rw [← hsame]; exact hne)]
              exact h.held other hother
            · rw [hsame, Function.update_self, hkey, hrow]
              exact hholds
          · have hnone := (find?_replace_eq_none (by rw [hsame]; exact hold)).1 hid'
            show Function.update keys id (requests i).apiKey id' = none
            rw [Function.update_of_ne fun heq => ?_]
            · exact h.absent id' hnone
            · rw [heq, hold] at hnone
              cases hnone

/-- What every request may do, it does. -/
theorem allowed_of_history {tr : ProfileHistory}
    (h : Interleaved profileWorld anyAnswer (ProfileRequest.serve crypto masterKey) requests s tr) {i : Nat}
    {step : Step ProfileStore} (hmem : (i, step) ∈ tr) :
    ProfileOpAllowed crypto masterKey (requests i) step.op := by
  obtain ⟨rest, out, hrun⟩ := h.own i
  exact hrun.only (ProfileRequest.serve_only (requests i)) step (List.mem_append_left _ (mem_ownSteps.2 hmem))

theorem keysStored_of_history {tr : ProfileHistory} (hstored : KeysStored crypto masterKey keys s)
    (h : Interleaved profileWorld anyAnswer (ProfileRequest.serve crypto masterKey) requests s tr) :
    KeysStored crypto masterKey (keysAfter requests keys tr) (profilesAfter s tr) := by
  induction tr using List.reverseRecOn with
  | nil => exact hstored
  | append_singleton earlier entry ih =>
      obtain ⟨i, step⟩ := entry
      rw [profilesAfter, after_sharedSteps_snoc, keysAfter, List.foldl_append]
      exact (ih h.of_append).kept h.accepts (allowed_of_history h (by simp))

/-- What holds after a history of administration: super admins alone have done anything, rows resolve to the
    keys stored last, and a profile says whether it has one. -/
structure CredentialsKept (crypto : CredentialCrypto) (texts : CredentialTexts) (masterKey : MasterKey)
    (requests : Nat → ProfileRequest) (keys : Uuid → Option String) (s : ProfileWorld)
    (tr : ProfileHistory) : Prop where
  authorized : ∀ i step, (i, step) ∈ tr → Role.fromStr (requests i).claims.role = some .superAdmin
  resolved : ∀ (r : DbModelRouter) (row : ProviderProfileRow) baseUrl,
    r.vault = credentialVault crypto texts masterKey → row ∈ (profilesAfter s tr).profiles →
    row.baseUrl = some baseUrl →
    r.resolveCredentials row.toProviderProfile = .ok ⟨baseUrl, keysAfter requests keys tr row.id⟩
  shown : ∀ row ∈ (profilesAfter s tr).profiles,
    (profileJson row).hasCredentials = (keysAfter requests keys tr row.id).isSome

/-- However administrators work at the same time and whichever of their statements fail, the router reads
    the keys that they stored. -/
theorem credentials_kept (crypto : CredentialCrypto) (texts : CredentialTexts) (masterKey : MasterKey)
    (requests : Nat → ProfileRequest) (keys : Uuid → Option String) (s : ProfileWorld) (tr : ProfileHistory)
    (hstored : KeysStored crypto masterKey keys s)
    (h : Interleaved profileWorld anyAnswer (ProfileRequest.serve crypto masterKey) requests s tr) :
    CredentialsKept crypto texts masterKey requests keys s tr := by
  have hlast := keysStored_of_history hstored h
  refine ⟨fun i step hmem => (allowed_of_history h hmem).1, fun r row baseUrl hvault hrow hbase => ?_,
    fun row hrow => ?_⟩
  · exact resolveCredentials_of_holds hvault hbase (hlast.held row hrow)
  · rw [profileJson, (hlast.held row hrow).emptyAuth_eq, Bool.not_not]

end

/-! ## A key stored between the steps of an update -/

/-- The bytes of `sk-test`, and what the cipher makes of them under the key and the nonce below. -/
def sampleKeyBytes : List UInt8 := [115, 107, 45, 116, 101, 115, 116]

/-- What the sample cipher makes of `sk-test`. -/
def sampleCiphertext : List UInt8 :=
  [169, 197, 171, 221, 43, 52, 24, 79, 64, 163, 52, 217, 95, 20, 142, 166, 234, 252, 177, 135, 37, 34, 59]

/-- It agrees with the cipher on the sample key. -/
def sampleCipher : Aes256Gcm where
  encrypt _ _ := Equiv.swap sampleKeyBytes sampleCiphertext
  decrypt _ _ ciphertext := some (Equiv.swap sampleKeyBytes sampleCiphertext ciphertext)
  decrypt_eq_some_iff _ _ ciphertext plaintext := by
    rw [Option.some.injEq, Equiv.swap_apply_eq_iff, eq_comm]

/-- The sample cipher with the base64 alphabet of the standard. -/
def sampleCrypto : CredentialCrypto := ⟨sampleCipher, standardBase64⟩

/-- A key of 32 bytes. -/
def sampleMasterKey : MasterKey := ⟨List.replicate 32 5, by decide⟩

/-- A nonce of 12 bytes. -/
def sampleNonce : CredentialNonce := ⟨[0, 1, 2, 3, 4, 5, 6, 7, 8, 9, 10, 11], by decide⟩

/-- The texts of the three libraries that may refuse a stored credential. -/
def sampleTexts : CredentialTexts where
  decodeError _ := "Invalid padding"
  utf8Error _ := "invalid utf-8 sequence"
  valueError _ := "missing field"

/-- The ciphertext and the nonce as they are stored. -/
def sampleSecret : EncryptedSecret := ⟨"qcWr3Ss0GE9AozTZXxSOpur8sYclIjs=", "AAECAwQFBgcICQoL"⟩

theorem sampleSecret_encrypts : encryptApiKey sampleCrypto sampleMasterKey sampleNonce "sk-test" = sampleSecret := by
  decide

/-- The profile as it is created, with its key, and with the new address. -/
def sealedProfileRow (baseUrl : String) (auth : Json) : ProviderProfileRow :=
  ⟨⟨1, "openai", "openai", some baseUrl, false, auth, true⟩, 0⟩

/-- A super admin creates a profile and moves it, and another administrator lists the profiles. -/
def sampleProfileRequests : Nat → ProfileRequest
  | 0 => ⟨⟨1, 10, "super_admin"⟩, .create ⟨"openai", "openai", some "https://old", some "sk-test", false⟩⟩
  | 1 => ⟨⟨1, 10, "super_admin"⟩, .update 1 ⟨some "https://new", none, none, none⟩⟩
  | _ => ⟨⟨2, 10, "org_admin"⟩, .list⟩

/-- The second request reads the row before the first has stored its key, and updates it afterwards. -/
def sampleProfileHistory : ProfileHistory :=
  [(0, ⟨.create "openai" "openai" (some "https://old") false, .ok (sealedProfileRow "https://old" (.obj []))⟩),
    (1, ⟨.get 1, .ok (sealedProfileRow "https://old" (.obj []))⟩),
    (0, ⟨.drawNonce, sampleNonce⟩),
    (0, ⟨.setAuth 1 sampleSecret.toValue, .ok (sealedProfileRow "https://old" sampleSecret.toValue)⟩),
    (1, ⟨.update 1 (some "https://new") false true, .ok (sealedProfileRow "https://new" sampleSecret.toValue)⟩)]

theorem sampleProfile_created : ((sampleProfileRequests 0).serve sampleCrypto sampleMasterKey).Runs anyAnswer
    [⟨.create "openai" "openai" (some "https://old") false, .ok (sealedProfileRow "https://old" (.obj []))⟩,
      ⟨.drawNonce, sampleNonce⟩,
      ⟨.setAuth 1 sampleSecret.toValue, .ok (sealedProfileRow "https://old" sampleSecret.toValue)⟩]
    (.ok (.profile (profileJson (sealedProfileRow "https://old" sampleSecret.toValue)))) := by
  rw [← sampleSecret_encrypts]
  exact .op trivial (.op trivial (.op trivial (.pure _)))

theorem credentials_kept_sample :
    CredentialsKept sampleCrypto sampleTexts sampleMasterKey sampleProfileRequests (fun _ => none)
      ⟨.empty⟩ sampleProfileHistory := by
  have hstored : KeysStored sampleCrypto sampleMasterKey (fun _ => none) ⟨.empty⟩ :=
    ⟨fun row hrow => (by cases hrow), fun _ _ => rfl⟩
  refine credentials_kept _ _ _ _ _ _ _ hstored ⟨⟨⟨rfl, fun other hother => ?_, rfl⟩, rfl, trivial,
    ⟨_, rfl, rfl⟩, ⟨_, rfl, rfl⟩, trivial⟩, fun i => ?_⟩
  · cases hother
  · rcases i with _ | _ | i
    · exact ⟨[], _, sampleProfile_created⟩
    · exact ⟨[], _, .op trivial (.op trivial (.pure _))⟩
    · exact ⟨[], _, .throw _⟩

end Godwit
