import Godwit.Lib.Interleaving
import Godwit.Admin.Proofs.ApiKeys

set_option autoImplicit false

/-! # Revoked keys

Requests that authenticate fill the cache; blocking, deleting and regenerating change the row behind it
and leave the cache alone. So a revocation is final only where the cache did not know the key, and no
request that had already read the row puts it there afterwards. The proof follows every plaintext: the
secrets of the stored keys differ, and once one is dead no step brings it back. -/

namespace Godwit

/-! ## What a request does on its own -/

/-- A request may hold a generated key that it has not stored, or a row that it has not cached. -/
inductive KeyPhase where
  | idle
  | generated (plaintext hash : String)
  | found (auth : String) (key : ApiKeyRow)
  deriving DecidableEq

/-- The token that a request presents, and what it holds. -/
structure KeyLocal where
  token : Option String
  phase : KeyPhase

/-- A request before its first step. -/
def KeyLocal.start : KeyTraffic → KeyLocal
  | .admin _ => ⟨none, .idle⟩
  | .authenticated authorization => ⟨bearerToken authorization, .idle⟩

/-- The row that a lookup leaves with the request. -/
def KeyLocal.foundAmong (argon2 : Argon2) (l : KeyLocal) (candidates : List ApiKeyRow) : KeyPhase :=
  match l.token with
  | none => l.phase
  | some auth =>
    match candidates.find? fun key => argon2.verify auth key.keyHash with
    | none => l.phase
    | some key => .found auth key

/-- What a request knows after a step of its own. -/
def KeyLocal.next (argon2 : Argon2) (l : KeyLocal) : Step KeyStore → KeyLocal
  | ⟨.generateApiKey, generated⟩ => { l with phase := .generated generated.plaintext generated.hash }
  | ⟨.create _, _⟩ => { l with phase := .idle }
  | ⟨.regenerateKey _ _ _, _⟩ => { l with phase := .idle }
  | ⟨.getByPrefix _, .ok candidates⟩ => { l with phase := l.foundAmong argon2 candidates }
  | ⟨.cacheInsert _ _, _⟩ => { l with phase := .idle }
  | _ => l

/-- Only a generated key is stored and only a found row is cached. -/
def KeyLocal.accepts (l : KeyLocal) : Step KeyStore → Prop
  | ⟨.cacheInsert auth key, _⟩ => l.phase = .found auth key
  | ⟨.create key, _⟩ => ∃ plaintext, l.phase = .generated plaintext key.keyHash
  | ⟨.regenerateKey _ _ hash, _⟩ => ∃ plaintext, l.phase = .generated plaintext hash
  | _ => True

/-- The steps of one request, in which the answers agree with what it knows. -/
abbrev keyLocal (argon2 : Argon2) : Monitor KeyStore where
  State := KeyLocal
  next := KeyLocal.next argon2
  accepts := KeyLocal.accepts

section Local

variable {argon2 : Argon2} {env : Environment KeyStore} {l : KeyLocal} {β : Type}

theorem keeps_claimedRole {claims : Claims} {f : Role → KeyApp ApiError β}
    (hf : ∀ role, (keyLocal argon2).Keeps env l (f role)) :
    (keyLocal argon2).Keeps env l (claimedRole claims >>= f) := by
  unfold claimedRole
  split
  · exact hf _
  · exact .throw

theorem keeps_forbidIf {denied : Bool} {f : Unit → KeyApp ApiError β}
    (hf : (keyLocal argon2).Keeps env l (f ())) : (keyLocal argon2).Keeps env l (forbidIf denied >>= f) := by
  cases denied with
  | true => exact .throw
  | false => exact hf

/-- The lookup and the comparison that the handlers begin with. -/
theorem keeps_ownKey {role : Role} {claims : Claims} {id : Uuid} {f : ApiKeyRow → KeyApp ApiError β}
    (hf : ∀ key, (keyLocal argon2).Keeps env l (f key)) :
    (keyLocal argon2).Keeps env l
      (do let key ← orCore (← askKeys (.getById id))
          forbidIf (foreignTo role claims key)
          f key) :=
  .perform fun _ => ⟨trivial, .ofExcept_bind fun key => keeps_forbidIf (hf key)⟩

theorem ApiKeyRequest.keepsProtocol (r : ApiKeyRequest) : (keyLocal argon2).Keeps env l r.serve := by
  obtain ⟨claims, call⟩ := r
  cases call with
  | list organizationId =>
      refine keeps_claimedRole fun role => keeps_forbidIf ?_
      cases role <;> cases organizationId
      all_goals exact .perform fun _ => ⟨trivial, .ofExcept_bind fun _ => .pure⟩
  | get id => exact keeps_claimedRole fun _ => keeps_forbidIf (keeps_ownKey fun _ => .pure)
  | create req =>
      refine keeps_claimedRole fun _ => keeps_forbidIf (.perform fun generated => ⟨trivial, ?_⟩)
      exact .perform fun _ => ⟨⟨generated.plaintext, rfl⟩, .ofExcept_bind fun _ => .pure⟩
  | delete id =>
      refine keeps_claimedRole fun _ => keeps_forbidIf (keeps_ownKey fun _ => ?_)
      exact .perform fun _ => ⟨trivial, .ofExcept_bind fun _ => .pure⟩
  | block id =>
      refine keeps_claimedRole fun _ => keeps_ownKey fun _ => ?_
      exact .perform fun _ => ⟨trivial, .ofExcept_bind fun _ => .pure⟩
  | unblock id =>
      refine keeps_claimedRole fun _ => keeps_ownKey fun _ => ?_
      exact .perform fun _ => ⟨trivial, .ofExcept_bind fun _ => .pure⟩
  | regenerate id =>
      refine keeps_claimedRole fun _ => keeps_ownKey fun _ => .perform fun generated => ⟨trivial, ?_⟩
      exact .perform fun _ => ⟨⟨generated.plaintext, rfl⟩, .ofExcept_bind fun _ => .pure⟩
  | resetSpend id =>
      refine keeps_claimedRole fun _ => keeps_ownKey fun _ => ?_
      exact .perform fun _ => ⟨trivial, .ofExcept_bind fun _ => .pure⟩

theorem apiKeyAuthFallback_keepsProtocol {auth : String} (htoken : l.token = some auth) :
    (keyLocal argon2).Keeps env l (apiKeyAuthFallback argon2 auth) := by
  unfold apiKeyAuthFallback
  cases extractPrefix auth with
  | none => exact .throw
  | some keyPrefix =>
      refine .perform fun fetched => ⟨trivial, ?_⟩
      cases fetched with
      | error e => exact .throw
      | ok candidates =>
          dsimp only
          cases hfind : candidates.find? fun key => argon2.verify auth key.keyHash with
          | none => exact .throw
          | some key =>
              refine .perform fun now => ⟨trivial, ?_⟩
              have hphase : l.foundAmong argon2 candidates = .found auth key := by
                simp [KeyLocal.foundAmong, htoken, hfind]
              split
              · exact .throw
              · exact .perform fun _ => ⟨hphase, .pure⟩

theorem apiKeyAuth_keepsProtocol {authorization : Option String}
    (htoken : l.token = bearerToken authorization) :
    (keyLocal argon2).Keeps env l (apiKeyAuth argon2 authorization) := by
  unfold apiKeyAuth
  cases hauth : bearerToken authorization with
  | none => exact .throw
  | some auth =>
      rw [hauth] at htoken
      refine .perform fun cached => ⟨trivial, ?_⟩
      cases cached with
      | none => exact apiKeyAuthFallback_keepsProtocol htoken
      | some key =>
          refine .perform fun now => ⟨trivial, ?_⟩
          split
          · exact .pure
          · exact apiKeyAuthFallback_keepsProtocol htoken

/-- Every request keeps to the local protocol. -/
theorem KeyTraffic.locally_safe (r : KeyTraffic) (tr : List (Step KeyStore)) (out : Except KeyFault KeyReply)
    (hrun : (r.serve argon2).Runs env tr out) : (keyLocal argon2).Safe (KeyLocal.start r) tr := by
  have hkeeps : (keyLocal argon2).Keeps env (KeyLocal.start r) (r.serve argon2) := by
    cases r with
    | admin r => exact .bind (.mapError r.keepsProtocol) fun _ _ => .pure
    | authenticated authorization => exact .bind (.mapError (apiKeyAuth_keepsProtocol rfl)) fun _ _ => .pure
  exact (hkeeps tr out hrun).1

end Local

/-! ## What a step does to the table -/

/-- The key whose hash a statement has written, and the hash. -/
def storedHash : Step KeyStore → Option (Uuid × String)
  | ⟨.create key, .ok row⟩ => some (row.id, key.keyHash)
  | ⟨.regenerateKey id _ hash, .ok _⟩ => some (id, hash)
  | _ => none

/-- Where a row after a step comes from: a row of the same key and hash, enabled or disabled by this very
    step or as before, or a hash that the step has written. -/
def RowOrigin (s : KeyWorld) (step : Step KeyStore) (row : ApiKeyRow) : Prop :=
  (∃ old ∈ s.keys, old.id = row.id ∧ old.keyHash = row.keyHash
      ∧ (row.disabled = old.disabled
        ∨ ∃ active, step = ⟨.setActive row.id active, .ok row⟩ ∧ row.disabled = !active))
    ∨ storedHash step = some (row.id, row.keyHash)

theorem RowOrigin.of_mem {s : KeyWorld} {step : Step KeyStore} {row : ApiKeyRow} (h : row ∈ s.keys) :
    RowOrigin s step row :=
  .inl ⟨row, h, rfl, rfl, .inl rfl⟩

/-- A statement that replaces a row. -/
theorem RowOrigin.of_replaced {s : KeyWorld} {step : Step KeyStore} {new row : ApiKeyRow}
    (hnew : RowOrigin s step new) (hrow : row ∈ s.keys.replace new) : RowOrigin s step row := by
  rcases Table.mem_replace.1 hrow with ⟨hrow, -⟩ | ⟨rfl, -⟩
  · exact .of_mem hrow
  · exact hnew

theorem rowOrigin_of_next {argon2 : Argon2} {s : KeyWorld} {step : Step KeyStore} {row : ApiKeyRow}
    (haccepts : s.answers argon2 step.op step.answer) (hrow : row ∈ (s.next step).keys) :
    RowOrigin s step row := by
  obtain ⟨o, answer⟩ := step
  cases o with
  | create key =>
      cases answer with
      | error e => exact .of_mem hrow
      | ok new =>
          obtain ⟨hnew, hfresh, -⟩ := haccepts
          rcases (Table.mem_insert_of_fresh hfresh).1 hrow with hrow | rfl
          · exact .of_mem hrow
          · refine .inr ?_
            show some (row.id, key.keyHash) = some (row.id, row.keyHash)
            rw [hnew]
            rfl
  | delete id =>
      cases answer with
      | error e => exact .of_mem hrow
      | ok done => exact .of_mem (Table.mem_delete.1 hrow).1
  | setActive id active =>
      cases answer with
      | error e => exact .of_mem hrow
      | ok new =>
          obtain ⟨old, hold, rfl⟩ := haccepts
          obtain ⟨hmem, rfl⟩ := Table.find?_eq_some_iff.1 hold
          refine .of_replaced (.inl ?_) hrow
          exact ⟨old, hmem, rfl, rfl, .inr ⟨active, rfl, rfl⟩⟩
  | regenerateKey id keyPrefix hash =>
      cases answer with
      | error e => exact .of_mem hrow
      | ok new =>
          obtain ⟨old, hold, hchange⟩ := haccepts
          obtain ⟨-, rfl⟩ := Table.find?_eq_some_iff.1 hold
          refine .of_replaced (.inr ?_) hrow
          rw [hchange]
          rfl
  | resetSpend id =>
      cases answer with
      | error e => exact .of_mem hrow
      | ok new =>
          obtain ⟨old, hold, rfl⟩ := haccepts
          refine .of_replaced (.inl ?_) hrow
          exact ⟨old, (Table.find?_eq_some_iff.1 hold).1, rfl, rfl, .inl rfl⟩
  | _ => exact .of_mem hrow

/-! ## Secrets -/

/-- The plaintexts of the stored keys have been seen, and no two keys share one. -/
structure Secrets (argon2 : Argon2) (s : KeyWorld) : Prop where
  seen : ∀ row ∈ s.keys, ∀ plaintext, argon2.verify plaintext row.keyHash = true → plaintext ∈ s.issued
  apart : ∀ row ∈ s.keys, ∀ row' ∈ s.keys, ∀ plaintext, argon2.verify plaintext row.keyHash = true →
    argon2.verify plaintext row'.keyHash = true → row = row'

/-- A key generated by a request belongs to that request alone until it is stored. -/
structure SecretsHeld (argon2 : Argon2) (s : KeyWorld) (l : Nat → KeyLocal) : Prop extends
    Secrets argon2 s where
  held : ∀ i plaintext hash, (l i).phase = .generated plaintext hash →
    argon2.verify plaintext hash = true ∧ plaintext ∈ s.issued
  unstored : ∀ i plaintext hash, (l i).phase = .generated plaintext hash →
    ∀ row ∈ s.keys, argon2.verify plaintext row.keyHash = false
  own : ∀ i j plaintext hash hash', (l i).phase = .generated plaintext hash →
    (l j).phase = .generated plaintext hash' → i = j

section Step

variable {argon2 : Argon2} {s : KeyWorld} {l : Nat → KeyLocal} {i : Nat} {step : Step KeyStore}

/-- A request that holds a generated key after a step has just generated it, or held it before. -/
theorem generated_of_next {l : KeyLocal} {step : Step KeyStore} {plaintext hash : String}
    (h : (l.next argon2 step).phase = .generated plaintext hash) :
    (∃ keyPrefix, step = ⟨.generateApiKey, ⟨plaintext, hash, keyPrefix⟩⟩)
      ∨ (l.phase = .generated plaintext hash ∧ storedHash step = none) := by
  obtain ⟨o, answer⟩ := step
  cases o with
  | generateApiKey =>
      obtain ⟨plaintext', hash', keyPrefix⟩ := answer
      cases h
      exact .inl ⟨keyPrefix, rfl⟩
  | create key => cases h
  | regenerateKey id keyPrefix hash' => cases h
  | cacheInsert auth key => cases h
  | getByPrefix keyPrefix =>
      cases answer with
      | error e => exact .inr ⟨h, rfl⟩
      | ok candidates =>
          refine .inr ⟨?_, rfl⟩
          have hphase : l.foundAmong argon2 candidates = .generated plaintext hash := h
          unfold KeyLocal.foundAmong at hphase
          split at hphase
          · exact hphase
          · split at hphase
            · exact hphase
            · cases hphase
  | _ => exact .inr ⟨h, rfl⟩

/-- A stored hash is one that the request had generated. -/
theorem stored_of_accepts {l : KeyLocal} {step : Step KeyStore} {id : Uuid} {hash : String}
    (hstored : storedHash step = some (id, hash)) (h : l.accepts step) :
    ∃ plaintext, l.phase = .generated plaintext hash := by
  obtain ⟨o, answer⟩ := step
  cases o with
  | create key =>
      cases answer with
      | error e => cases hstored
      | ok row =>
          cases hstored
          exact h
  | regenerateKey id' keyPrefix hash' =>
      cases answer with
      | error e => cases hstored
      | ok row =>
          cases hstored
          exact h
  | _ => cases hstored

/-- Steps only add to the plaintexts seen. -/
theorem issued_of_next {plaintext : String} (h : plaintext ∈ s.issued) :
    plaintext ∈ (s.next step).issued := by
  obtain ⟨o, answer⟩ := step
  cases o with
  | generateApiKey => exact List.mem_cons_of_mem _ h
  | create key => cases answer <;> exact h
  | delete id => cases answer <;> exact h
  | setActive id active => cases answer <;> exact h
  | regenerateKey id keyPrefix hash => cases answer <;> exact h
  | resetSpend id => cases answer <;> exact h
  | _ => exact h

theorem generated_of_update {j : Nat} {plaintext hash : String}
    (h : (Function.update l i ((l i).next argon2 step) j).phase = .generated plaintext hash) :
    (j = i ∧ ∃ keyPrefix, step = ⟨.generateApiKey, ⟨plaintext, hash, keyPrefix⟩⟩)
      ∨ ((l j).phase = .generated plaintext hash ∧ (j = i → storedHash step = none)) := by
  by_cases hj : j = i
  · subst hj
    rw [Function.update_self] at h
    rcases generated_of_next h with hnew | ⟨hold, hstored⟩
    · exact .inl ⟨rfl, hnew⟩
    · exact .inr ⟨hold, fun _ => hstored⟩
  · rw [Function.update_of_ne hj] at h
    exact .inr ⟨h, fun heq => absurd heq hj⟩

/-- A row that a plaintext opens after a step was opened by it before, or the request that took the step
    had generated the plaintext and has stored it now. -/
theorem SecretsHeld.opened_of_next (h : SecretsHeld argon2 s l)
    (haccepts : s.answers argon2 step.op step.answer) (hlocal : (l i).accepts step) {row : ApiKeyRow}
    (hrow : row ∈ (s.next step).keys) {plaintext : String}
    (hopens : argon2.verify plaintext row.keyHash = true) :
    (∃ old ∈ s.keys, old.id = row.id ∧ argon2.verify plaintext old.keyHash = true
        ∧ (row.disabled = old.disabled
          ∨ ∃ active, step = ⟨.setActive row.id active, .ok row⟩ ∧ row.disabled = !active))
      ∨ ∃ hash, storedHash step = some (row.id, hash) ∧ (l i).phase = .generated plaintext hash := by
  rcases rowOrigin_of_next haccepts hrow with ⟨old, hold, hid, hhash, hdisabled⟩ | hstored
  · exact .inl ⟨old, hold, hid, by rw [hhash]; exact hopens, hdisabled⟩
  · obtain ⟨plaintext', hphase⟩ := stored_of_accepts hstored hlocal
    have hopens' := (h.held i _ _ hphase).1
    rw [argon2.exclusive _ _ _ hopens' hopens] at hphase
    exact .inr ⟨_, hstored, hphase⟩

theorem SecretsHeld.secrets_next (h : SecretsHeld argon2 s l)
    (haccepts : s.answers argon2 step.op step.answer) (hlocal : (l i).accepts step) :
    Secrets argon2 (s.next step) := by
  refine ⟨fun row hrow plaintext hopens => ?_, fun row hrow row' hrow' plaintext hopens hopens' => ?_⟩
  · rcases h.opened_of_next haccepts hlocal hrow hopens with ⟨old, hold, -, hopens, -⟩ | ⟨hash, -, hphase⟩
    · exact issued_of_next (h.seen old hold plaintext hopens)
    · exact issued_of_next (h.held i _ _ hphase).2
  · refine Table.eq_of_key hrow hrow' ?_
    rcases h.opened_of_next haccepts hlocal hrow hopens with
      ⟨old, hold, hid, hopens, -⟩ | ⟨hash, hstored, hphase⟩
    all_goals
      rcases h.opened_of_next haccepts hlocal hrow' hopens' with
        ⟨old', hold', hid', hopens', -⟩ | ⟨hash', hstored', hphase'⟩
    · rw [← hid, ← hid', h.apart old hold old' hold' plaintext hopens hopens']
    · exact absurd hopens (by simp [h.unstored i _ _ hphase' old hold])
    · exact absurd hopens' (by simp [h.unstored i _ _ hphase old' hold'])
    · exact (Prod.mk.inj (Option.some.inj (hstored.symm.trans hstored'))).1

/-- Steps keep the secrets apart. -/
theorem SecretsHeld.kept (h : SecretsHeld argon2 s l)
    (haccepts : s.answers argon2 step.op step.answer) (hlocal : (l i).accepts step) :
    SecretsHeld argon2 (s.next step) (Function.update l i ((l i).next argon2 step)) := by
  -- A key that has just been generated was never seen.
  have hnew : ∀ {plaintext hash keyPrefix}, step = ⟨.generateApiKey, ⟨plaintext, hash, keyPrefix⟩⟩ →
      plaintext ∉ s.issued ∧ argon2.verify plaintext hash = true ∧ plaintext ∈ (s.next step).issued := by
    rintro plaintext hash keyPrefix rfl
    exact ⟨haccepts.1, haccepts.2.1, List.mem_cons_self⟩
  refine ⟨h.secrets_next haccepts hlocal, fun j plaintext hash hj => ?_,
    fun j plaintext hash hj row hrow => ?_, fun j k plaintext hash hash' hj hk => ?_⟩
  · rcases generated_of_update hj with ⟨-, keyPrefix, hstep⟩ | ⟨hold, -⟩
    · exact (hnew hstep).2
    · exact ⟨(h.held j _ _ hold).1, issued_of_next (h.held j _ _ hold).2⟩
  · by_contra hopens
    have hopens : argon2.verify plaintext row.keyHash = true := by simpa using hopens
    rcases h.opened_of_next haccepts hlocal hrow hopens with
      ⟨old, hold, -, hopens, -⟩ | ⟨hash', hstored, hphase⟩
    all_goals rcases generated_of_update hj with ⟨-, keyPrefix, hstep⟩ | ⟨hheld, hnone⟩
    · exact (hnew hstep).1 (h.seen old hold plaintext hopens)
    · exact absurd hopens (by simp [h.unstored j _ _ hheld old hold])
    · rw [hstep] at hstored
      cases hstored
    · rw [hnone (h.own j i _ _ _ hheld hphase)] at hstored
      cases hstored
  · rcases generated_of_update hj with ⟨rfl, keyPrefix, hstep⟩ | ⟨hheld, -⟩
    all_goals rcases generated_of_update hk with ⟨rfl, keyPrefix', hstep'⟩ | ⟨hheld', -⟩
    · rfl
    · exact absurd (h.held k _ _ hheld').2 (hnew hstep).1
    · exact absurd (h.held j _ _ hheld).2 (hnew hstep').1
    · exact h.own j k _ _ _ hheld hheld'

end Step

/-! ## Dead plaintexts -/

/-- The step blocks, deletes or regenerates the key. -/
def RevokesKey (id : Uuid) : Step KeyStore → Prop
  | ⟨.setActive id' false, .ok _⟩ => id' = id
  | ⟨.delete id', .ok _⟩ => id' = id
  | ⟨.regenerateKey id' _ _, .ok _⟩ => id' = id
  | _ => False

/-- The step that makes a blocked key active again. -/
def UnblocksKey (id : Uuid) : Step KeyStore → Prop
  | ⟨.setActive id' true, .ok _⟩ => id' = id
  | _ => False

/-- The request has read candidates from the table. -/
def LooksUp (steps : List (Step KeyStore)) : Prop :=
  ∃ keyPrefix candidates, (⟨.getByPrefix keyPrefix, .ok candidates⟩ : Step KeyStore) ∈ steps

/-- Nothing lets the plaintext pass: the cache does not know it, the rows that it opens are blocked, and
    a request that could still cache one of them is a late one. -/
structure Dead (argon2 : Argon2) (plaintext : String) (id : Uuid) (blocked : Prop) (late : Nat → Prop)
    (s : KeyWorld) (l : Nat → KeyLocal) : Prop extends SecretsHeld argon2 s l where
  uncached : s.cache plaintext = none
  closed : ∀ row ∈ s.keys, argon2.verify plaintext row.keyHash = true →
    blocked ∧ row.id = id ∧ row.disabled = true
  spent : plaintext ∈ s.issued
  ungenerated : ∀ i hash, (l i).phase ≠ .generated plaintext hash
  unfound : ∀ i key, (l i).phase = .found plaintext key → late i

section Dead

variable {argon2 : Argon2} {s : KeyWorld} {l : Nat → KeyLocal} {i : Nat} {step : Step KeyStore}
  {plaintext : String} {id : Uuid}

theorem found_of_next {l : KeyLocal} {auth : String} {key : ApiKeyRow}
    (h : (l.next argon2 step).phase = .found auth key) :
    l.phase = .found auth key
      ∨ ∃ keyPrefix candidates, step = ⟨.getByPrefix keyPrefix, .ok candidates⟩
        ∧ candidates.find? (fun key => argon2.verify auth key.keyHash) = some key := by
  obtain ⟨o, answer⟩ := step
  cases o with
  | generateApiKey => cases h
  | create key => cases h
  | regenerateKey id keyPrefix hash => cases h
  | cacheInsert auth key => cases h
  | getByPrefix keyPrefix =>
      cases answer with
      | error e => exact .inl h
      | ok candidates =>
          have hphase : l.foundAmong argon2 candidates = .found auth key := h
          unfold KeyLocal.foundAmong at hphase
          split at hphase
          · exact .inl hphase
          · split at hphase
            · exact .inl hphase
            case h_2 hfind =>
              cases hphase
              exact .inr ⟨keyPrefix, candidates, rfl, hfind⟩
  | _ => exact .inl h

/-- A request that holds a row has looked it up. -/
theorem looksUp_of_found {l : KeyLocal} {steps : List (Step KeyStore)} {auth : String}
    {key : ApiKeyRow} (h : ((keyLocal argon2).after l steps).phase = .found auth key) :
    l.phase = .found auth key ∨ LooksUp steps := by
  induction steps generalizing l with
  | nil => exact .inl h
  | cons step rest ih =>
      rcases ih h with hnext | ⟨keyPrefix, candidates, hmem⟩
      · rcases found_of_next hnext with hold | ⟨keyPrefix, candidates, rfl, -⟩
        · exact .inl hold
        · exact .inr ⟨keyPrefix, candidates, List.mem_cons_self⟩
      · exact .inr ⟨keyPrefix, candidates, List.mem_cons_of_mem _ hmem⟩

theorem cache_of_next (s : KeyWorld) (step : Step KeyStore) (auth : String) :
    (s.next step).cache auth = s.cache auth ∨ ∃ key answer, step = ⟨.cacheInsert auth key, answer⟩ := by
  obtain ⟨o, answer⟩ := step
  cases o with
  | cacheInsert auth' key =>
      by_cases hauth : auth = auth'
      · subst hauth
        exact .inr ⟨key, answer, rfl⟩
      · exact .inl (Function.update_of_ne hauth _ _)
  | create key => cases answer <;> exact .inl rfl
  | delete id => cases answer <;> exact .inl rfl
  | setActive id active => cases answer <;> exact .inl rfl
  | regenerateKey id keyPrefix hash => cases answer <;> exact .inl rfl
  | resetSpend id => cases answer <;> exact .inl rfl
  | _ => exact .inl rfl

/-- The candidates of a lookup are enabled rows. -/
theorem enabled_of_candidate {keyPrefix : String} {candidates : List ApiKeyRow} {key : ApiKeyRow}
    (haccepts : s.answers argon2 (.getByPrefix keyPrefix) (.ok candidates))
    (hfind : candidates.find? (fun key => argon2.verify plaintext key.keyHash) = some key) :
    key ∈ s.keys ∧ key.disabled = false ∧ argon2.verify plaintext key.keyHash = true := by
  have hperm : candidates.Perm (s.keys.rows.filter fun row =>
    row.keyPrefix = keyPrefix ∧ row.disabled = false) := haccepts
  have hmem := hperm.mem_iff.1 (List.mem_of_find?_eq_some hfind)
  obtain ⟨hrow, henabled⟩ := List.mem_filter.1 hmem
  have henabled' : key.keyPrefix = keyPrefix ∧ key.disabled = false := by simpa using henabled
  exact ⟨hrow, henabled'.2, by simpa using List.find?_some hfind⟩

/-- A dead plaintext finds nothing in the table. -/
theorem Dead.no_candidate {blocked : Prop} {late : Nat → Prop}
    (h : Dead argon2 plaintext id blocked late s l) {keyPrefix : String} {candidates : List ApiKeyRow}
    (haccepts : s.answers argon2 (.getByPrefix keyPrefix) (.ok candidates)) (key : ApiKeyRow) :
    candidates.find? (fun key => argon2.verify plaintext key.keyHash) ≠ some key := by
  intro hfind
  obtain ⟨hrow, henabled, hopens⟩ := enabled_of_candidate haccepts hfind
  have hdisabled := (h.closed key hrow hopens).2.2
  rw [henabled] at hdisabled
  cases hdisabled

/-- A dead plaintext stays dead until the key is unblocked or a late request caches it. -/
theorem Dead.kept {blocked : Prop} {late : Nat → Prop}
    (h : Dead argon2 plaintext id blocked late s l)
    (haccepts : s.answers argon2 step.op step.answer) (hlocal : (l i).accepts step)
    (hunblock : blocked → ¬ UnblocksKey id step)
    (hlate : late i → ∀ key answer, step ≠ ⟨.cacheInsert plaintext key, answer⟩) :
    Dead argon2 plaintext id blocked late (s.next step)
      (Function.update l i ((l i).next argon2 step)) := by
  refine ⟨h.toSecretsHeld.kept haccepts hlocal, ?_, fun row hrow hopens => ?_, issued_of_next h.spent,
    fun j hash hj => ?_, fun j key hj => ?_⟩
  · rcases cache_of_next s step plaintext with hsame | ⟨key, answer, rfl⟩
    · rw [hsame]
      exact h.uncached
    · exact absurd rfl (hlate (h.unfound i key hlocal) key answer)
  · rcases h.opened_of_next haccepts hlocal hrow hopens with
      ⟨old, hold, hid, hopens, hdisabled⟩ | ⟨hash, -, hphase⟩
    · obtain ⟨hblocked, hold_id, hold_disabled⟩ := h.closed old hold hopens
      refine ⟨hblocked, hid.symm.trans hold_id, ?_⟩
      rcases hdisabled with hsame | ⟨active, hstep, hactive⟩
      · rw [hsame]
        exact hold_disabled
      · cases active with
        | false => simpa using hactive
        | true =>
            refine absurd ?_ (hunblock hblocked)
            rw [hstep]
            exact hid.symm.trans hold_id
    · exact absurd hphase (h.ungenerated i hash)
  · rcases generated_of_update hj with ⟨-, keyPrefix, rfl⟩ | ⟨hheld, -⟩
    · exact haccepts.1 h.spent
    · exact h.ungenerated j hash hheld
  · by_cases hji : j = i
    · subst hji
      rw [Function.update_self] at hj
      rcases found_of_next hj with hold | ⟨keyPrefix, candidates, rfl, hfind⟩
      · exact h.unfound j key hold
      · exact absurd hfind (h.no_candidate haccepts key)
    · rw [Function.update_of_ne hji] at hj
      exact h.unfound j key hj

/-- What a revocation leaves of the row: a blocked one, or one with a new hash. -/
theorem row_of_revoked (haccepts : s.answers argon2 step.op step.answer) (hrevokes : RevokesKey id step)
    {row : ApiKeyRow} (hrow : row ∈ (s.next step).keys) (hid : row.id = id) :
    (step.op = .setActive id false ∧ row.disabled = true) ∨ storedHash step = some (id, row.keyHash) := by
  obtain ⟨o, answer⟩ := step
  cases o with
  | setActive id' active =>
      cases active with
      | true => exact hrevokes.elim
      | false =>
          cases answer with
          | error e => exact hrevokes.elim
          | ok new =>
              cases (hrevokes : id' = id)
              obtain ⟨old, hold, hchange⟩ := haccepts
              have hnew : new.id = id := by
                rw [hchange]
                exact (Table.find?_eq_some_iff.1 hold).2
              rcases Table.mem_replace.1 hrow with ⟨-, hne⟩ | ⟨rfl, -⟩
              · exact absurd (hid.trans hnew.symm) hne
              · exact .inl ⟨rfl, by rw [hchange]; rfl⟩
  | delete id' =>
      cases answer with
      | error e => exact hrevokes.elim
      | ok done =>
          cases (hrevokes : id' = id)
          exact absurd hid (by simpa using (Table.mem_delete.1 hrow).2)
  | regenerateKey id' keyPrefix hash =>
      cases answer with
      | error e => exact hrevokes.elim
      | ok new =>
          cases (hrevokes : id' = id)
          obtain ⟨old, hold, hchange⟩ := haccepts
          have hnew : new.id = id := by
            rw [hchange]
            exact (Table.find?_eq_some_iff.1 hold).2
          rcases Table.mem_replace.1 hrow with ⟨-, hne⟩ | ⟨rfl, -⟩
          · exact absurd (hid.trans hnew.symm) hne
          · refine .inr ?_
            rw [hchange]
            rfl
  | _ => exact hrevokes.elim

/-- A revocation kills the plaintext where the cache does not know it. -/
theorem SecretsHeld.dead (h : SecretsHeld argon2 s l) (late : Nat → Prop)
    (haccepts : s.answers argon2 step.op step.answer) (hlocal : (l i).accepts step)
    (hrevokes : RevokesKey id step) {row : ApiKeyRow} (hrow : s.keys.find? id = some row)
    (hopens : argon2.verify plaintext row.keyHash = true) (huncached : s.cache plaintext = none)
    (hlate : ∀ j key, (l j).phase = .found plaintext key → late j) :
    Dead argon2 plaintext id (step.op = .setActive id false) late (s.next step)
      (Function.update l i ((l i).next argon2 step)) := by
  obtain ⟨hmem, hrowid⟩ := Table.find?_eq_some_iff.1 hrow
  have hseen := h.seen row hmem plaintext hopens
  have hnot : ∀ j hash, (l j).phase ≠ .generated plaintext hash := by
    intro j hash hj
    have hclosed := h.unstored j _ _ hj row hmem
    rw [hopens] at hclosed
    cases hclosed
  refine ⟨h.kept haccepts hlocal, ?_, fun new hnew hopens' => ?_, issued_of_next hseen,
    fun j hash hj => ?_, fun j key hj => ?_⟩
  · rcases cache_of_next s step plaintext with hsame | ⟨key, answer, rfl⟩
    · rw [hsame]
      exact huncached
    · exact hrevokes.elim
  · rcases h.opened_of_next haccepts hlocal hnew hopens' with
      ⟨old, hold, hid, hopened, -⟩ | ⟨hash, -, hphase⟩
    · -- The row that the plaintext opened is the revoked one.
      have heq := h.apart old hold row hmem plaintext hopened hopens
      have hnewid : new.id = id := by rw [← hid, heq, hrowid]
      rcases row_of_revoked haccepts hrevokes hnew hnewid with ⟨hblock, hdisabled⟩ | hstored
      · exact ⟨hblock, hnewid, hdisabled⟩
      · obtain ⟨other, hphase⟩ := stored_of_accepts hstored hlocal
        have hverify := (h.held i _ _ hphase).1
        rw [argon2.exclusive _ _ _ hverify hopens'] at hphase
        exact absurd hphase (hnot i _)
    · exact absurd hphase (hnot i hash)
  · rcases generated_of_update hj with ⟨-, keyPrefix, rfl⟩ | ⟨hheld, -⟩
    · exact hrevokes.elim
    · exact hnot j hash hheld
  · by_cases hji : j = i
    · subst hji
      rw [Function.update_self] at hj
      rcases found_of_next hj with hold | ⟨keyPrefix, candidates, rfl, -⟩
      · exact hlate j key hold
      · exact hrevokes.elim
    · rw [Function.update_of_ne hji] at hj
      exact hlate j key hj

end Dead

/-! ## Histories -/

/-- A request that passes got its key from the cache or from the table. -/
theorem apiKeyAuth_passes {argon2 : Argon2} {env : Environment KeyStore} {authorization : Option String}
    {auth : String} (hauth : bearerToken authorization = some auth) {tr : List (Step KeyStore)}
    {key : ApiKeyRow} (h : (apiKeyAuth argon2 authorization).Runs env tr (.ok key)) :
    (∃ cached, (⟨.cacheGet auth, some cached⟩ : Step KeyStore) ∈ tr)
      ∨ ∃ keyPrefix candidates found, (⟨.getByPrefix keyPrefix, .ok candidates⟩ : Step KeyStore) ∈ tr
        ∧ candidates.find? (fun key => argon2.verify auth key.keyHash) = some found := by
  have hfallback : ∀ {tr key}, (apiKeyAuthFallback argon2 auth).Runs env tr (.ok key) →
      ∃ keyPrefix candidates found, (⟨.getByPrefix keyPrefix, .ok candidates⟩ : Step KeyStore) ∈ tr
        ∧ candidates.find? (fun key => argon2.verify auth key.keyHash) = some found := by
    intro tr key h
    unfold apiKeyAuthFallback at h
    cases hextract : extractPrefix auth with
    | none =>
        rw [hextract] at h
        cases h
    | some keyPrefix =>
        rw [hextract] at h
        obtain ⟨fetched, rest, rfl, -, h⟩ := Program.runs_perform_bind_iff.1 h
        cases fetched with
        | error e => cases h
        | ok candidates =>
            dsimp only at h
            cases hfind : candidates.find? fun key => argon2.verify auth key.keyHash with
            | none =>
                rw [hfind] at h
                cases h
            | some found => exact ⟨keyPrefix, candidates, found, List.mem_cons_self, hfind⟩
  unfold apiKeyAuth at h
  rw [hauth] at h
  obtain ⟨cached, rest, rfl, -, h⟩ := Program.runs_perform_bind_iff.1 h
  cases cached with
  | some cached => exact .inl ⟨cached, List.mem_cons_self⟩
  | none =>
      obtain ⟨keyPrefix, candidates, found, hmem, hfind⟩ := hfallback h
      exact .inr ⟨keyPrefix, candidates, found, List.mem_cons_of_mem _ hmem, hfind⟩

/-- The steps of the requests, in the order in which they were taken. -/
abbrev KeyHistory := List (Nat × Step KeyStore)

/-- The world after a history. -/
abbrev worldAfter (argon2 : Argon2) (s : KeyWorld) (tr : KeyHistory) : KeyWorld :=
  (keyWorld argon2).after s (sharedSteps tr)

/-- At this point of the history a step revokes the key that the plaintext opens. -/
structure RevokedAt (argon2 : Argon2) (s : KeyWorld) (tr before : KeyHistory) (entry : Nat × Step KeyStore)
    (after : KeyHistory) (id : Uuid) (plaintext : String) : Prop where
  split : tr = before ++ entry :: after
  revokes : RevokesKey id entry.2
  opens : ∃ row, (worldAfter argon2 s before).keys.find? id = some row
    ∧ argon2.verify plaintext row.keyHash = true

/-- After a revocation no request that begins later passes with the plaintext; a block lasts until the
    key is unblocked. -/
def RevocationsHold (argon2 : Argon2) (s : KeyWorld) (requests : Nat → KeyTraffic) (tr : KeyHistory) : Prop :=
  ∀ before entry after id plaintext, RevokedAt argon2 s tr before entry after id plaintext →
    (entry.2.op = .setActive id false → ∀ later ∈ after, ¬ UnblocksKey id later.2) →
    ∀ j authorization, requests j = .authenticated authorization →
      bearerToken authorization = some plaintext → ownSteps j before = [] →
      ∀ key, ¬ Returns anyAnswer (KeyTraffic.serve argon2) requests tr j (.ok (.passed key))

/-- At every revocation the cache does not hold the plaintext, and no request that has looked candidates up
    before it caches the plaintext after it. -/
def RevokedUncached (argon2 : Argon2) (s : KeyWorld) (tr : KeyHistory) : Prop :=
  ∀ before entry after id plaintext, RevokedAt argon2 s tr before entry after id plaintext →
    (worldAfter argon2 s before).cache plaintext = none
      ∧ ∀ j, LooksUp (ownSteps j before) →
        ∀ key answer, (j, ⟨.cacheInsert plaintext key, answer⟩) ∉ after

section History

variable {argon2 : Argon2} {s : KeyWorld} {requests : Nat → KeyTraffic} {tr before after : KeyHistory}

/-- Along every history the secrets stay apart. -/
theorem secretsHeld_of_history (hsecrets : Secrets argon2 s)
    (h : Interleaved (keyWorld argon2) anyAnswer (KeyTraffic.serve argon2) requests s tr) :
    SecretsHeld argon2 (worldAfter argon2 s tr)
      (Interleaved.locals (L := keyLocal argon2) KeyLocal.start requests tr) := by
  have hidle : ∀ i, (KeyLocal.start (requests i)).phase = .idle := by
    intro i
    cases requests i <;> rfl
  have hstart : SecretsHeld argon2 s fun i => KeyLocal.start (requests i) := by
    refine ⟨hsecrets, fun i plaintext hash hi => ?_, fun i plaintext hash hi => ?_,
      fun i j plaintext hash hash' hi => ?_⟩
    all_goals
      rw [hidle i] at hi
      cases hi
  exact h.invariant_of_start (J := SecretsHeld argon2) (C := fun _ _ _ _ => True)
    KeyTraffic.locally_safe (fun _ _ _ _ hheld haccepts hlocal _ => hheld.kept haccepts hlocal) hstart
    fun _ _ _ _ _ => trivial

/-- From a revocation on, the plaintext is dead. -/
theorem dead_after_revocation (hsecrets : Secrets argon2 s) {entry : Nat × Step KeyStore} {id : Uuid}
    {plaintext : String} (hrevoked : RevokedAt argon2 s tr before entry after id plaintext)
    (h : Interleaved (keyWorld argon2) anyAnswer (KeyTraffic.serve argon2) requests s tr)
    (hunblock : entry.2.op = .setActive id false → ∀ later ∈ after, ¬ UnblocksKey id later.2)
    (huncached : (worldAfter argon2 s before).cache plaintext = none)
    (hlate : ∀ j, LooksUp (ownSteps j before) →
      ∀ key answer, (j, ⟨.cacheInsert plaintext key, answer⟩) ∉ after)
    {middle rest : KeyHistory} (hafter : after = middle ++ rest) :
    Dead argon2 plaintext id (entry.2.op = .setActive id false) (fun j => LooksUp (ownSteps j before))
      (worldAfter argon2 s (before ++ entry :: middle))
      (Interleaved.locals (L := keyLocal argon2) KeyLocal.start requests (before ++ entry :: middle)) := by
  obtain ⟨hsplit, hrevokes, row, hrow, hopens⟩ := hrevoked
  obtain ⟨i, step⟩ := entry
  subst hsplit hafter
  have hregroup : before ++ (i, step) :: (middle ++ rest) = (before ++ (i, step) :: middle) ++ rest := by
    simp
  have hbefore := secretsHeld_of_history hsecrets h.of_append
  have hdead := hbefore.dead (fun j => LooksUp (ownSteps j before)) h.accepts
    (h.locally_accepts KeyTraffic.locally_safe) hrevokes hrow hopens huncached fun j key hj => by
      rcases looksUp_of_found hj with hstart | hlooks
      · cases hrequest : requests j <;> rw [hrequest] at hstart <;> cases hstart
      · exact hlooks
  have hsnoc : before ++ (i, step) :: middle = (before ++ [(i, step)]) ++ middle := by simp
  rw [hregroup] at h
  have h' := h.of_append
  rw [hsnoc] at h' ⊢
  refine h'.invariant (C := fun _ _ j later => (j, later) ∈ middle) KeyTraffic.locally_safe
    (fun _ _ j later hd haccepts hlocal hmem => hd.kept haccepts hlocal (fun hblock => ?_)
      fun hlooks key answer heq => ?_) ?_ fun _ _ _ _ hmiddle => ?_
  · exact hunblock hblock _ (List.mem_append_left _ hmem)
  · subst heq
    exact hlate j hlooks key answer (List.mem_append_left _ hmem)
  · rw [Interleaved.locals_snoc]
    simpa using hdead
  · rw [hmiddle]
    simp

/-- Where no revocation meets a cached copy, or one that is about to be cached, revocations hold. -/
theorem revocation_effective (argon2 : Argon2) (s : KeyWorld) (requests : Nat → KeyTraffic) (tr : KeyHistory)
    (hsecrets : Secrets argon2 s)
    (h : Interleaved (keyWorld argon2) anyAnswer (KeyTraffic.serve argon2) requests s tr)
    (hcache : RevokedUncached argon2 s tr) : RevocationsHold argon2 s requests tr := by
  intro before entry after id plaintext hrevoked hunblock j authorization hrequest htoken hlater key hreturns
  obtain ⟨huncached, hlate⟩ := hcache before entry after id plaintext hrevoked
  -- The step that let the request pass comes after the revocation, where the plaintext is dead.
  have hstep : ∀ step, step ∈ ownSteps j tr → ¬ RevokesKey id step → ∃ middle rest,
      after = middle ++ (j, step) :: rest ∧ Dead argon2 plaintext id (entry.2.op = .setActive id false)
        (fun j => LooksUp (ownSteps j before)) (worldAfter argon2 s (before ++ entry :: middle))
        (Interleaved.locals (L := keyLocal argon2) KeyLocal.start requests (before ++ entry :: middle)) := by
    intro step hmem hnot
    rw [hrevoked.split, ownSteps_append, hlater, List.nil_append, mem_ownSteps] at hmem
    rcases List.mem_cons.1 hmem with hentry | hmem
    · refine absurd ?_ hnot
      have hrevokes := hrevoked.revokes
      rw [← hentry] at hrevokes
      exact hrevokes
    · obtain ⟨middle, rest, hafter⟩ := List.append_of_mem hmem
      exact ⟨middle, rest, hafter,
        dead_after_revocation hsecrets hrevoked h hunblock huncached hlate hafter⟩
  have haccepts : ∀ {step middle rest}, after = middle ++ (j, step) :: rest →
      (worldAfter argon2 s (before ++ entry :: middle)).answers argon2 step.op step.answer := by
    intro step middle rest hafter
    have hsplit : tr = (before ++ entry :: middle) ++ (j, step) :: rest := by
      rw [hrevoked.split, hafter]
      simp
    rw [hsplit] at h
    exact h.accepts
  have hrun : (apiKeyAuth argon2 authorization).Runs anyAnswer (ownSteps j tr) (.ok key) := by
    have hrun : ((KeyTraffic.authenticated authorization).serve argon2).Runs anyAnswer (ownSteps j tr)
        (.ok (.passed key)) := hrequest ▸ hreturns
    obtain ⟨key', first, second, htr, hmapped, hpure⟩ := hrun.bind_ok
    obtain ⟨rfl, hkey⟩ := Program.runs_pure_iff.1 hpure
    obtain ⟨outcome, hrun, houtcome⟩ := Program.runs_mapError_iff.1 hmapped
    cases outcome with
    | error e => cases houtcome
    | ok found =>
        cases houtcome
        cases hkey
        rw [htr, List.append_nil]
        exact hrun
  rcases apiKeyAuth_passes htoken hrun with ⟨cached, hmem⟩ | ⟨keyPrefix, candidates, found, hmem, hfind⟩
  · obtain ⟨middle, rest, hafter, hdead⟩ := hstep _ hmem fun hrevokes => hrevokes
    have hcached : some cached = (worldAfter argon2 s (before ++ entry :: middle)).cache plaintext :=
      haccepts hafter
    rw [hdead.uncached] at hcached
    cases hcached
  · obtain ⟨middle, rest, hafter, hdead⟩ := hstep _ hmem fun hrevokes => hrevokes
    exact hdead.no_candidate (haccepts hafter) found hfind

end History

/-! ## Two histories -/

theorem sampleSecrets : Secrets sampleArgon2 sampleKeyWorld := by
  have hrow : ∀ row ∈ sampleKeyWorld.keys, row = sampleKeyRow := fun row hrow => List.mem_singleton.1 hrow
  refine ⟨fun row hmem plaintext hopens => ?_, fun row hmem row' hmem' _ _ _ => ?_⟩
  · rw [hrow row hmem] at hopens
    have hfirst := sampleArgon2.exclusive _ _ "sk-godwit-first" hopens (by decide)
    rw [hfirst]
    decide
  · rw [hrow row hmem, hrow row' hmem']

/-- The sample key is blocked before anyone has used it, then someone tries it. -/
def blockedFirstRequests : Nat → KeyTraffic
  | 0 => .admin ⟨⟨2, 10, "org_admin"⟩, .block 5⟩
  | 1 => .authenticated (some "Bearer sk-godwit-first")
  | _ => .authenticated none

/-- The key is blocked, and then not found. -/
def blockedFirst : KeyHistory :=
  [(0, ⟨.getById 5, .ok sampleKeyRow⟩),
    (0, ⟨.setActive 5 false, .ok { sampleKeyRow with disabled := true }⟩),
    (1, ⟨.cacheGet "sk-godwit-first", none⟩),
    (1, ⟨.getByPrefix "first", .ok []⟩)]

theorem revocation_effective_sample :
    Interleaved (keyWorld sampleArgon2) anyAnswer (KeyTraffic.serve sampleArgon2) blockedFirstRequests
        sampleKeyWorld blockedFirst
      ∧ RevocationsHold sampleArgon2 sampleKeyWorld blockedFirstRequests blockedFirst := by
  have hhistory : Interleaved (keyWorld sampleArgon2) anyAnswer (KeyTraffic.serve sampleArgon2)
      blockedFirstRequests sampleKeyWorld blockedFirst := by
    refine ⟨⟨rfl, ⟨sampleKeyRow, rfl, rfl⟩, rfl, List.Perm.refl _, trivial⟩, fun i => ?_⟩
    match i with
    | 0 => exact ⟨[], _, .op trivial (.op trivial (.pure _))⟩
    | 1 => exact ⟨[], _, .op trivial (.op trivial (.throw _))⟩
    | i + 2 => exact ⟨[], _, .throw _⟩
  refine ⟨hhistory, revocation_effective _ _ _ _ sampleSecrets hhistory ?_⟩
  rintro before ⟨i, step⟩ after id plaintext ⟨hsplit, hrevokes, -⟩
  -- Only the second step revokes anything, and nothing is ever cached.
  rcases before with _ | ⟨a, _ | ⟨b, _ | ⟨c, _ | ⟨d, before⟩⟩⟩⟩
  · cases hsplit
    exact hrevokes.elim
  · cases hsplit
    refine ⟨rfl, fun j hlooks => ?_⟩
    obtain ⟨keyPrefix, candidates, hmem⟩ := hlooks
    rw [mem_ownSteps, List.mem_singleton] at hmem
    cases hmem
  · cases hsplit
    exact hrevokes.elim
  · cases hsplit
    exact hrevokes.elim
  · have hlength := congrArg List.length hsplit
    simp [blockedFirst] at hlength

/-- A request has passed with the sample key before it is blocked. -/
def blockedLateRequests : Nat → KeyTraffic
  | 0 => .authenticated (some "Bearer sk-godwit-first")
  | 1 => .admin ⟨⟨2, 10, "org_admin"⟩, .block 5⟩
  | 2 => .authenticated (some "Bearer sk-godwit-first")
  | _ => .authenticated none

/-- The key is in the cache when it is blocked, and is still found there. -/
def blockedLate : KeyHistory :=
  [(0, ⟨.cacheGet "sk-godwit-first", none⟩),
    (0, ⟨.getByPrefix "first", .ok [sampleKeyRow]⟩),
    (0, ⟨.now, (0 : Int)⟩),
    (0, ⟨.cacheInsert "sk-godwit-first" sampleKeyRow, ()⟩),
    (1, ⟨.getById 5, .ok sampleKeyRow⟩),
    (1, ⟨.setActive 5 false, .ok { sampleKeyRow with disabled := true }⟩),
    (2, ⟨.cacheGet "sk-godwit-first", some sampleKeyRow⟩),
    (2, ⟨.now, (1 : Int)⟩)]

/-- The blocked key passes out of the cache. -/
theorem revocation_not_effective :
    ¬ ∀ (s : KeyWorld) (requests : Nat → KeyTraffic) (tr : KeyHistory), Secrets sampleArgon2 s →
      Interleaved (keyWorld sampleArgon2) anyAnswer (KeyTraffic.serve sampleArgon2) requests s tr →
      RevocationsHold sampleArgon2 s requests tr := by
  intro h
  have hhistory : Interleaved (keyWorld sampleArgon2) anyAnswer (KeyTraffic.serve sampleArgon2)
      blockedLateRequests sampleKeyWorld blockedLate := by
    refine ⟨⟨rfl, List.Perm.refl _, trivial, trivial, rfl, ⟨sampleKeyRow, rfl, rfl⟩, rfl, trivial, trivial⟩,
      fun i => ?_⟩
    match i with
    | 0 => exact ⟨[], _, .op trivial (.op trivial (.op trivial (.op trivial (.pure _))))⟩
    | 1 => exact ⟨[], _, .op trivial (.op trivial (.pure _))⟩
    | 2 => exact ⟨[], _, .op trivial (.op trivial (.pure _))⟩
    | i + 3 => exact ⟨[], _, .throw _⟩
  have hrevoked : RevokedAt sampleArgon2 sampleKeyWorld blockedLate (blockedLate.take 5)
      (1, ⟨.setActive 5 false, .ok { sampleKeyRow with disabled := true }⟩) (blockedLate.drop 6) 5
      "sk-godwit-first" :=
    ⟨rfl, rfl, sampleKeyRow, rfl, by decide⟩
  refine h _ _ _ sampleSecrets hhistory _ _ _ _ _ hrevoked (fun _ later hlater => ?_) 2
    (some "Bearer sk-godwit-first") rfl (by decide) rfl sampleKeyRow ?_
  · rcases List.mem_pair.1 hlater with rfl | rfl
    · exact fun hunblocks => hunblocks
    · exact fun hunblocks => hunblocks
  · exact .op trivial (.op trivial (.pure _))

end Godwit
