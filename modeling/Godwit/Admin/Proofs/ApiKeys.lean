import Godwit.Lib.Session
import Godwit.Admin.ApiKeys

set_option autoImplicit false

/-! # What the administration of api keys may touch

`KeysConfined` is what roles promise of one request: nothing for a caller who may not manage keys, and
nothing of another organization for one who is not a super admin. Four handlers never ask for the first,
so it holds in sessions where no plain user reaches a key through them. -/

namespace Godwit

/-- The role of the caller may manage keys; a text that names no role may not. -/
def Claims.canManageApiKeys (claims : Claims) : Bool :=
  match Role.fromStr claims.role with
  | some role => role.canManageApiKeys
  | none => false

/-- The plaintext key that an outcome hands out, and whose it is. -/
def handedOut : Except ApiError ApiKeyResponse → Option (Uuid × String)
  | .ok (.created id key _) => some (id, key)
  | .ok (.regenerated key id _) => some (id, key)
  | _ => none

/-- A request to the key administration and what it was answered. -/
abbrev KeyExchange := Exchange KeyStore ApiKeyRequest ApiError ApiKeyResponse

/-- What one request may do to the table and hand out. -/
structure KeysConfined (s : KeyWorld) (x : KeyExchange) (s' : KeyWorld) : Prop where
  unmanaged : x.request.claims.canManageApiKeys = false →
    s'.keys = s.keys ∧ handedOut x.outcome = none
  foreign : x.request.claims.role ≠ "super_admin" →
    ∀ row : ApiKeyRow, row.organizationId ≠ x.request.claims.organizationId →
      (row ∈ s'.keys ↔ row ∈ s.keys) ∧ (row ∈ s'.keys → ∀ key, handedOut x.outcome ≠ some (row.id, key))

/-- A plain user acts on a key of the own organization through a handler that does not ask for the
    permission, and the statement behind it has something to change. -/
def Escapes (s : KeyWorld) (r : ApiKeyRequest) : Prop :=
  r.claims.role = "user" ∧ ∃ row ∈ s.keys, row.organizationId = r.claims.organizationId ∧
    match r.call with
    | .block id => row.id = id ∧ row.disabled = false
    | .unblock id => row.id = id ∧ row.disabled = true
    | .regenerate id => row.id = id
    | .resetSpend id => row.id = id ∧ row.budgetSpentUsd ≠ Decimal.zero
    | _ => False

/-! ## The parts the handlers share -/

section Parts

variable {argon2 : Argon2} {env : Environment KeyStore} {s : KeyWorld} {α β : Type}
  {Q : Except ApiError β → KeyWorld → Prop}

theorem claimedRole_bind {claims : Claims} {f : Role → KeyApp ApiError β}
    (hnone : Q (.error .forbidden) s)
    (hf : ∀ role, claims.role = role.asStr → (keyWorld argon2).Guarantees env s (f role) Q) :
    (keyWorld argon2).Guarantees env s (claimedRole claims >>= f) Q := by
  unfold claimedRole
  split
  case h_1 role hrole => exact hf role (Role.fromStr_eq_some_iff.1 hrole)
  case h_2 => exact .throw hnone

theorem forbidIf_bind {denied : Bool} {f : Unit → KeyApp ApiError β}
    (hdenied : Q (.error .forbidden) s)
    (hf : denied = false → (keyWorld argon2).Guarantees env s (f ()) Q) :
    (keyWorld argon2).Guarantees env s (forbidIf denied >>= f) Q := by
  unfold forbidIf
  cases denied with
  | true => exact .throw hdenied
  | false => exact hf rfl

theorem orCore_bind {r : Except PasteurError α} {f : α → KeyApp ApiError β}
    (herror : ∀ e, r = .error e → Q (.error (.core e)) s)
    (hf : ∀ a, r = .ok a → (keyWorld argon2).Guarantees env s (f a) Q) :
    (keyWorld argon2).Guarantees env s (orCore r >>= f) Q := by
  cases r with
  | ok a => exact hf a rfl
  | error e => exact .throw (herror e rfl)

/-- The key that the handlers act on is in the table, and the caller may see its organization. -/
theorem ownKey_bind {role : Role} {claims : Claims} {id : Uuid} {f : ApiKeyRow → KeyApp ApiError β}
    (herror : ∀ e, Q (.error e) s)
    (hf : ∀ key, s.keys.find? id = some key → foreignTo role claims key = false →
      (keyWorld argon2).Guarantees env s (f key) Q) :
    (keyWorld argon2).Guarantees env s
      (do let key ← orCore (← askKeys (.getById id))
          forbidIf (foreignTo role claims key)
          f key) Q := by
  refine .perform fun answer _ haccepts => ?_
  refine orCore_bind (fun e _ => herror _) fun key hanswer => ?_
  subst hanswer
  have hkey : some key = s.keys.find? id := haccepts
  exact forbidIf_bind (herror _) fun hown => hf key hkey.symm hown

end Parts

/-! ## One request -/

section Request

variable {s s' : KeyWorld} {x : KeyExchange}

theorem KeysConfined.of_unchanged (hkeys : s'.keys = s.keys) (hout : handedOut x.outcome = none) :
    KeysConfined s x s' :=
  ⟨fun _ => ⟨hkeys, hout⟩, fun _ row _ => ⟨by rw [hkeys], fun _ key h => by rw [hout] at h; cases h⟩⟩

/-- A caller of this role who is not a super admin acts on keys of the own organization. -/
theorem sameOrganization {role : Role} {claims : Claims} {key : ApiKeyRow}
    (hrole : claims.role = role.asStr) (hown : foreignTo role claims key = false)
    (hnot : claims.role ≠ "super_admin") : key.organizationId = claims.organizationId := by
  have hsuper : role ≠ .superAdmin := by
    rintro rfl
    exact hnot hrole
  simpa [foreignTo, hsuper] using hown

/-- The rows of other organizations when a row of the own one is replaced. -/
theorem mem_replace_foreign {t : ApiKeyTable} {key row other : ApiKeyRow} (hkey : key ∈ t)
    (hid : row.id = key.id) (horg : row.organizationId = key.organizationId)
    (hother : other.organizationId ≠ key.organizationId) : other ∈ t.replace row ↔ other ∈ t := by
  rw [Table.mem_replace]
  constructor
  · rintro (⟨hmem, -⟩ | ⟨rfl, -⟩)
    · exact hmem
    · exact absurd horg hother
  · intro hmem
    refine .inl ⟨hmem, fun hsame => hother ?_⟩
    rw [Table.eq_of_key hmem hkey (hsame.trans hid)]

/-- A statement that replaces the row of a key that the caller may see, where a plain user leaves it as
    it is and gets no plaintext. -/
theorem KeysConfined.of_replaced {role : Role} {key row : ApiKeyRow}
    (hrole : x.request.claims.role = role.asStr) (hkey : key ∈ s.keys)
    (hown : foreignTo role x.request.claims key = false) (hid : row.id = key.id)
    (horg : row.organizationId = key.organizationId)
    (huser : role = .user → row = key ∧ handedOut x.outcome = none)
    (hout : ∀ id text, handedOut x.outcome = some (id, text) → id = key.id)
    (hkeys : s'.keys = s.keys.replace row) : KeysConfined s x s' := by
  refine ⟨fun hcannot => ?_, fun hnot other hother => ?_⟩
  · have hplain : role = .user := by
      rw [Claims.canManageApiKeys, hrole, Role.fromStr_asStr] at hcannot
      cases role <;> first | rfl | cases hcannot
    obtain ⟨rfl, hnone⟩ := huser hplain
    exact ⟨by rw [hkeys, Table.replace_self hkey], hnone⟩
  · have hsame := sameOrganization hrole hown hnot
    rw [← hsame] at hother
    rw [hkeys]
    refine ⟨mem_replace_foreign hkey hid horg hother, fun hmem text h => ?_⟩
    have hmem' := (mem_replace_foreign hkey hid horg hother).1 hmem
    have heq := Table.eq_of_key hmem' hkey (hout _ _ h)
    exact hother (by rw [heq])

end Request

section Handlers

variable {argon2 : Argon2} {env : Environment KeyStore} {s : KeyWorld} {claims : Claims}

/-- The exchange of a request that took these steps. -/
abbrev ApiKeyRequest.exchange (r : ApiKeyRequest) (steps : List (Step KeyStore))
    (out : Except ApiError ApiKeyResponse) : KeyExchange :=
  ⟨r, steps, out⟩

/-- Every run of the handler keeps a request by these claims confined. -/
def StaysConfined (argon2 : Argon2) (env : Environment KeyStore) (s : KeyWorld) (r : ApiKeyRequest)
    (p : KeyApp ApiError ApiKeyResponse) : Prop :=
  (keyWorld argon2).Guarantees env s p fun out s' => ∀ steps, KeysConfined s (r.exchange steps out) s'

/-- A failure that leaves the table as it was. -/
theorem confined_error {r : ApiKeyRequest} {s' : KeyWorld} (e : ApiError) (hkeys : s'.keys = s.keys)
    (steps : List (Step KeyStore)) : KeysConfined s (r.exchange steps (.error e)) s' :=
  .of_unchanged hkeys rfl

theorem listApiKeys_confined (organizationId : Option Uuid) (call : ApiKeyCall) :
    StaysConfined argon2 env s ⟨claims, call⟩ (listApiKeys claims organizationId) := by
  -- Each of the three queries returns rows and changes nothing.
  have hquery : ∀ fetched : Except PasteurError (List ApiKeyRow),
      (keyWorld argon2).Guarantees env s (do
        let keys ← orCore fetched
        pure (ApiKeyResponse.keys (keys.map (·.toApiKeyRecord))))
        fun out s' => ∀ steps, KeysConfined s (ApiKeyRequest.exchange ⟨claims, call⟩ steps out) s' := by
    intro fetched
    refine orCore_bind (fun e _ => confined_error _ rfl) fun keys _ => ?_
    exact .pure fun steps => .of_unchanged rfl rfl
  refine claimedRole_bind (confined_error _ rfl) fun role _ => ?_
  refine forbidIf_bind (confined_error _ rfl) fun _ => ?_
  cases role <;> cases organizationId
  all_goals exact .perform fun fetched _ _ => hquery fetched

theorem getApiKey_confined (id : Uuid) (call : ApiKeyCall) :
    StaysConfined argon2 env s ⟨claims, call⟩ (getApiKey claims id) := by
  refine claimedRole_bind (confined_error _ rfl) fun role _ => ?_
  refine forbidIf_bind (confined_error _ rfl) fun _ => ?_
  refine ownKey_bind (fun e => confined_error _ rfl) fun key _ _ => ?_
  exact .pure fun steps => .of_unchanged rfl rfl

theorem deleteApiKey_confined (id : Uuid) (call : ApiKeyCall) :
    StaysConfined argon2 env s ⟨claims, call⟩ (deleteApiKey claims id) := by
  refine claimedRole_bind (confined_error _ rfl) fun role hrole => ?_
  refine forbidIf_bind (confined_error _ rfl) fun hmanages => ?_
  refine ownKey_bind (fun e => confined_error _ rfl) fun key hkey hown => ?_
  refine .perform fun executed _ _ => ?_
  refine orCore_bind (fun e he => ?_) fun done hdone => ?_
  · subst he
    exact confined_error _ rfl
  · subst hdone
    refine .pure fun steps => ⟨fun hcannot => ?_, fun hnot other hother => ⟨?_, fun _ key h => by cases h⟩⟩
    · have hcan : role.canManageApiKeys = true := by simpa using hmanages
      rw [Claims.canManageApiKeys, hrole, Role.fromStr_asStr] at hcannot
      simp [hcan] at hcannot
    · obtain ⟨hmem, hid⟩ := Table.find?_eq_some_iff.1 hkey
      have hsame : key.organizationId = claims.organizationId := sameOrganization hrole hown hnot
      have hne : other ∈ s.keys → other.id ≠ id := by
        rintro hother' rfl
        exact hother (by rw [Table.eq_of_key hother' hmem hid.symm]; exact hsame)
      show other ∈ s.keys.delete (fun row => row.id = id) ↔ other ∈ s.keys
      rw [Table.mem_delete]
      simpa using hne

theorem createApiKey_confined (req : CreateApiKeyRequest) (call : ApiKeyCall) :
    StaysConfined argon2 env s ⟨claims, call⟩ (createApiKey claims req) := by
  refine claimedRole_bind (confined_error _ rfl) fun role hrole => ?_
  refine forbidIf_bind (confined_error _ rfl) fun hmanages => ?_
  refine .perform fun generated _ _ => .perform fun created _ haccepts => ?_
  refine orCore_bind (fun e he => ?_) fun row hrow => ?_
  · subst he
    exact confined_error _ rfl
  · subst hrow
    obtain ⟨hnew, hfresh, -⟩ := haccepts
    have horg : row.organizationId = claims.organizationId := by rw [hnew]; rfl
    have hmem : ∀ other, other ∈ s.keys.insert row ↔ other ∈ s.keys ∨ other = row := fun other =>
      Table.mem_insert_of_fresh hfresh
    refine .pure fun steps => ⟨fun hcannot => ?_, fun hnot other hother => ⟨?_, fun hin key h => ?_⟩⟩
    · have hcan : role.canManageApiKeys = true := by simpa using hmanages
      rw [Claims.canManageApiKeys, hrole, Role.fromStr_asStr] at hcannot
      simp [hcan] at hcannot
    · refine (hmem other).trans ⟨?_, .inl⟩
      rintro (hin | rfl)
      · exact hin
      · exact absurd horg hother
    · -- The plaintext handed out is that of the inserted row, which is in the caller's organization.
      have hid : row.id = other.id := by
        simpa [handedOut] using congrArg (Option.map Prod.fst) h
      rcases (hmem other).1 hin with hold | rfl
      · exact Table.find?_eq_none_iff.1 hfresh other hold hid.symm
      · exact hother horg

/-- The three handlers that change one field of the key they find. -/
theorem updateKey_confined {r : ApiKeyRequest} {id : Uuid} (change : ApiKeyRow → ApiKeyRow)
    {statement : Program KeyStore ApiError (Except PasteurError ApiKeyRow)}
    (hstatement : ∀ (Q : Except ApiError ApiKeyResponse → KeyWorld → Prop)
      (f : Except PasteurError ApiKeyRow → KeyApp ApiError ApiKeyResponse),
      (∀ updated, FetchOne (s.Updates id fun old row => row = change old) updated →
        (keyWorld argon2).Guarantees env (s.update updated) (f updated) Q) →
      (keyWorld argon2).Guarantees env s (statement >>= f) Q)
    (hid : ∀ row, (change row).id = row.id)
    (horg : ∀ row, (change row).organizationId = row.organizationId)
    (huser : r.claims.role = "user" → ∀ row ∈ s.keys, row.id = id →
      row.organizationId = r.claims.organizationId → change row = row) :
    StaysConfined argon2 env s r (do
      let role ← claimedRole r.claims
      let key ← orCore (← askKeys (.getById id))
      forbidIf (foreignTo role r.claims key)
      let updated ← orCore (← statement)
      pure (.key updated.toApiKeyRecord)) := by
  refine claimedRole_bind (confined_error _ rfl) fun role hrole => ?_
  refine ownKey_bind (fun e => confined_error _ rfl) fun key hkey hown => ?_
  refine hstatement _ _ fun updated haccepts => ?_
  refine orCore_bind (fun e he => ?_) fun row hrow => ?_
  · subst he
    exact confined_error _ rfl
  · subst hrow
    obtain ⟨old, hold, rfl⟩ := haccepts
    rw [hkey] at hold
    cases hold
    obtain ⟨hmem, hkeyid⟩ := Table.find?_eq_some_iff.1 hkey
    refine .pure fun steps => .of_replaced hrole hmem hown (hid key) (horg key) (fun hplain => ⟨?_, rfl⟩)
      (fun _ _ h => by cases h) rfl
    subst hplain
    refine huser hrole key hmem hkeyid (sameOrganization hrole hown ?_)
    rw [hrole]
    decide

theorem setActive_confined {id : Uuid} {active : Bool} {call : ApiKeyCall}
    (huser : claims.role = "user" → ∀ row ∈ s.keys, row.id = id →
      row.organizationId = claims.organizationId → row.disabled = !active) :
    StaysConfined argon2 env s ⟨claims, call⟩ (do
      let role ← claimedRole claims
      let key ← orCore (← askKeys (.getById id))
      forbidIf (foreignTo role claims key)
      let updated ← orCore (← askKeys (.setActive id active))
      pure (.key updated.toApiKeyRecord)) := by
  refine updateKey_confined (fun row => { row with disabled := !active })
    (fun Q f hf => .perform fun updated _ haccepts => hf updated haccepts) (fun _ => rfl) (fun _ => rfl)
    fun hplain row hrow hid horg => ?_
  rw [← huser hplain row hrow hid horg]

theorem resetSpend_confined {id : Uuid} {call : ApiKeyCall}
    (huser : claims.role = "user" → ∀ row ∈ s.keys, row.id = id →
      row.organizationId = claims.organizationId → row.budgetSpentUsd = Decimal.zero) :
    StaysConfined argon2 env s ⟨claims, call⟩ (resetSpend claims id) := by
  refine updateKey_confined (fun row => { row with budgetSpentUsd := Decimal.zero })
    (fun Q f hf => .perform fun updated _ haccepts => hf updated haccepts) (fun _ => rfl) (fun _ => rfl)
    fun hplain row hrow hid horg => ?_
  rw [← huser hplain row hrow hid horg]

theorem regenerateKey_confined {id : Uuid} {call : ApiKeyCall}
    (huser : claims.role = "user" → ∀ row ∈ s.keys, row.id = id →
      row.organizationId ≠ claims.organizationId) :
    StaysConfined argon2 env s ⟨claims, call⟩ (regenerateKey claims id) := by
  refine claimedRole_bind (confined_error _ rfl) fun role hrole => ?_
  refine ownKey_bind (fun e => confined_error _ rfl) fun key hkey hown => ?_
  refine .perform fun generated _ _ => .perform fun updated _ haccepts => ?_
  refine orCore_bind (fun e he => ?_) fun row hrow => ?_
  · subst he
    exact confined_error _ rfl
  · subst hrow
    obtain ⟨old, hold, hchange⟩ := haccepts
    have hold' : s.keys.find? id = some old := hold
    rw [hkey] at hold'
    cases hold'
    obtain ⟨hmem, hkeyid⟩ := Table.find?_eq_some_iff.1 hkey
    have hid : row.id = key.id := by rw [hchange]
    have horg : row.organizationId = key.organizationId := by rw [hchange]
    refine .pure fun steps => .of_replaced hrole hmem hown hid horg (fun hplain => ?_)
      (fun id' text h => ?_) rfl
    · subst hplain
      have hsame := sameOrganization hrole hown (by rw [hrole]; decide)
      exact absurd hsame (huser hrole key hmem hkeyid)
    · have hfst : row.id = id' := by simpa [handedOut] using congrArg (Option.map Prod.fst) h
      exact hfst.symm.trans hid

/-- A request that does not escape is confined. -/
theorem serve_confined {r : ApiKeyRequest} (h : ¬ Escapes s r) :
    StaysConfined argon2 env s r r.serve := by
  obtain ⟨claims, call⟩ := r
  cases call with
  | list organizationId => exact listApiKeys_confined organizationId _
  | get id => exact getApiKey_confined id _
  | create req => exact createApiKey_confined req _
  | delete id => exact deleteApiKey_confined id _
  | block id =>
      refine setActive_confined fun hplain row hrow hid horg => ?_
      by_contra hdisabled
      exact h ⟨hplain, row, hrow, horg, hid, by simpa using hdisabled⟩
  | unblock id =>
      refine setActive_confined fun hplain row hrow hid horg => ?_
      by_contra hdisabled
      exact h ⟨hplain, row, hrow, horg, hid, by simpa using hdisabled⟩
  | regenerate id =>
      refine regenerateKey_confined fun hplain row hrow hid horg => ?_
      exact h ⟨hplain, row, hrow, horg, hid⟩
  | resetSpend id =>
      refine resetSpend_confined fun hplain row hrow hid horg => ?_
      by_contra hspent
      exact h ⟨hplain, row, hrow, horg, hid, hspent⟩

end Handlers

/-! ## Sessions -/

/-- In a session in which no request escapes, every request is confined. -/
theorem apiKey_sessions_confined (argon2 : Argon2) (s : KeyWorld) (exchanges : List KeyExchange)
    (hserved : (keyWorld argon2).Serves anyAnswer ApiKeyRequest.serve s exchanges)
    (hescape : (keyWorld argon2).Throughout (fun s x _ => ¬ Escapes s x.request) s exchanges) :
    (keyWorld argon2).Throughout KeysConfined s exchanges :=
  hserved.throughout (fun _ x hrun hsafe hx => serve_confined hx x.steps x.outcome hrun hsafe x.steps)
    hescape

/-! ## A session -/

/-- A hash that shows its plaintext. -/
def sampleArgon2 : Argon2 where
  verify plaintext hash := hash = "$argon2id$" ++ plaintext
  exclusive hash plaintext plaintext' h h' := by
    have heq : "$argon2id$" ++ plaintext = "$argon2id$" ++ plaintext' := by
      rw [← of_decide_eq_true h, ← of_decide_eq_true h']
    simpa using heq

/-- The key `sk-godwit-first` of organization 10. -/
def sampleKeyRow : ApiKeyRow :=
  NewApiKey.row ⟨1, 10, "ci", "first", "$argon2id$sk-godwit-first", [], [], none, none, none⟩ 5 0

/-- One key, which is not in the cache yet. -/
def sampleKeyWorld : KeyWorld where
  keys := ⟨[sampleKeyRow], by decide⟩
  cache _ := none
  issued := ["sk-godwit-first"]

/-- The row once its key is `sk-godwit-second`. -/
def regeneratedKeyRow : ApiKeyRow :=
  { sampleKeyRow with keyPrefix := "second", keyHash := "$argon2id$sk-godwit-second", createdAt := 7 }

/-- An organization's admin blocks the key. -/
def blockedByAdmin : KeyExchange where
  request := ⟨⟨2, 10, "org_admin"⟩, .block 5⟩
  steps := [⟨.getById 5, .ok sampleKeyRow⟩, ⟨.setActive 5 false, .ok { sampleKeyRow with disabled := true }⟩]
  outcome := .ok (.key { sampleKeyRow with disabled := true }.toApiKeyRecord)

/-- A user asks for the list of keys. -/
def refusedList : KeyExchange where
  request := ⟨⟨3, 10, "user"⟩, .list none⟩
  steps := []
  outcome := .error .forbidden

theorem apiKey_session_sample :
    (keyWorld sampleArgon2).Serves anyAnswer ApiKeyRequest.serve sampleKeyWorld
        [blockedByAdmin, refusedList]
      ∧ (keyWorld sampleArgon2).Throughout KeysConfined sampleKeyWorld [blockedByAdmin, refusedList] := by
  have hserved : (keyWorld sampleArgon2).Serves anyAnswer ApiKeyRequest.serve sampleKeyWorld
      [blockedByAdmin, refusedList] :=
    ⟨⟨.op trivial (.op trivial (.pure _)), rfl, ⟨sampleKeyRow, rfl, rfl⟩, trivial⟩,
      ⟨.throw _, trivial⟩, trivial⟩
  refine ⟨hserved, apiKey_sessions_confined _ _ _ hserved ⟨?_, ?_, trivial⟩⟩
  · rintro ⟨hrole, -⟩
    exact absurd hrole (by decide)
  · rintro ⟨-, row, -, -, hcall⟩
    exact hcall

/-- A user regenerates a key of the own organization. -/
def regeneratedByUser : KeyExchange where
  request := ⟨⟨3, 10, "user"⟩, .regenerate 5⟩
  steps := [⟨.getById 5, .ok sampleKeyRow⟩,
    ⟨.generateApiKey, ⟨"sk-godwit-second", "$argon2id$sk-godwit-second", "second"⟩⟩,
    ⟨.regenerateKey 5 "second" "$argon2id$sk-godwit-second", .ok regeneratedKeyRow⟩]
  outcome := .ok (.regenerated "sk-godwit-second" 5 7)

/-- The user gets a plaintext key. -/
theorem apiKey_session_not_confined :
    ¬ ∀ (s : KeyWorld) (exchanges : List KeyExchange),
      (keyWorld sampleArgon2).Serves anyAnswer ApiKeyRequest.serve s exchanges →
      (keyWorld sampleArgon2).Throughout KeysConfined s exchanges := by
  intro h
  have hserved : (keyWorld sampleArgon2).Serves anyAnswer ApiKeyRequest.serve sampleKeyWorld
      [regeneratedByUser] :=
    ⟨⟨.op trivial (.op trivial (.op trivial (.pure _))), rfl,
      ⟨by decide, by decide, by decide, "second", by decide⟩, ⟨sampleKeyRow, rfl, rfl⟩, trivial⟩, trivial⟩
  have hconfined := (h _ _ hserved).1.unmanaged (by decide)
  exact absurd hconfined.2 (by decide)

end Godwit
