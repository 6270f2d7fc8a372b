import Godwit.Admin.Proofs.Revocation

set_option autoImplicit false

/-! # What it takes to authenticate with a key

A request passes with a key that the cache or the table has given it. Whichever it was, and whatever was
stored, cached, blocked, regenerated or deleted in between, the key opens with the token that the request
presents, it was an enabled row of the table at some point, and no token ever stands for two holders. -/

namespace Godwit

/-! ## Whom a key belongs to -/

/-- The key, its user and its organization: what a request is let through as. -/
def ApiKeyRow.holder (row : ApiKeyRow) : Uuid × Uuid × Uuid := (row.id, row.userId, row.organizationId)

section Step

variable {argon2 : Argon2} {s : KeyWorld} {l : Nat → KeyLocal} {i : Nat} {step : Step KeyStore}
  {plaintext : String}

/-- A row after a step has the holder and the hash of a row before, or its hash has been written by this
    very step. -/
theorem holder_of_next (haccepts : s.answers argon2 step.op step.answer) {row : ApiKeyRow}
    (hrow : row ∈ (s.next step).keys) :
    (∃ old ∈ s.keys, old.holder = row.holder ∧ old.keyHash = row.keyHash)
      ∨ storedHash step = some (row.id, row.keyHash) := by
  have hreplaced : ∀ {new old : ApiKeyRow} {id : Uuid}, s.keys.find? id = some old →
      new.holder = old.holder → new.keyHash = old.keyHash → row ∈ s.keys.replace new →
      ∃ old ∈ s.keys, old.holder = row.holder ∧ old.keyHash = row.keyHash := by
    intro new old id hold hholder hhash hrow
    rcases Table.mem_replace.1 hrow with ⟨hrow, -⟩ | ⟨rfl, -⟩
    · exact ⟨row, hrow, rfl, rfl⟩
    · exact ⟨old, (Table.find?_eq_some_iff.1 hold).1, hholder.symm, hhash.symm⟩
  obtain ⟨o, answer⟩ := step
  cases o with
  | create key =>
      cases answer with
      | error e => exact .inl ⟨row, hrow, rfl, rfl⟩
      | ok new =>
          obtain ⟨hnew, hfresh, -⟩ := haccepts
          rcases (Table.mem_insert_of_fresh hfresh).1 hrow with hrow | rfl
          · exact .inl ⟨row, hrow, rfl, rfl⟩
          · refine .inr ?_
            show some (row.id, key.keyHash) = some (row.id, row.keyHash)
            rw [hnew]
            rfl
  | delete id =>
      cases answer with
      | error e => exact .inl ⟨row, hrow, rfl, rfl⟩
      | ok done => exact .inl ⟨row, (Table.mem_delete.1 hrow).1, rfl, rfl⟩
  | setActive id active =>
      cases answer with
      | error e => exact .inl ⟨row, hrow, rfl, rfl⟩
      | ok new =>
          obtain ⟨old, hold, hchange⟩ := haccepts
          exact .inl (hreplaced hold (by rw [hchange]; rfl) (by rw [hchange]) hrow)
  | regenerateKey id keyPrefix hash =>
      cases answer with
      | error e => exact .inl ⟨row, hrow, rfl, rfl⟩
      | ok new =>
          obtain ⟨old, hold, hchange⟩ := haccepts
          obtain ⟨-, rfl⟩ := Table.find?_eq_some_iff.1 hold
          rcases Table.mem_replace.1 hrow with ⟨hrow, -⟩ | ⟨rfl, -⟩
          · exact .inl ⟨row, hrow, rfl, rfl⟩
          · refine .inr ?_
            rw [hchange]
            rfl
  | resetSpend id =>
      cases answer with
      | error e => exact .inl ⟨row, hrow, rfl, rfl⟩
      | ok new =>
          obtain ⟨old, hold, hchange⟩ := haccepts
          exact .inl (hreplaced hold (by rw [hchange]; rfl) (by rw [hchange]) hrow)
  | _ => exact .inl ⟨row, hrow, rfl, rfl⟩

/-- The plaintext is known, no request is about to store it, and all rows that it opens have the holder. -/
structure OpensFor (argon2 : Argon2) (plaintext : String) (holder : Uuid × Uuid × Uuid) (s : KeyWorld)
    (l : Nat → KeyLocal) : Prop extends SecretsHeld argon2 s l where
  known : plaintext ∈ s.issued
  ungenerated : ∀ i hash, (l i).phase ≠ .generated plaintext hash
  holders : ∀ row ∈ s.keys, argon2.verify plaintext row.keyHash = true → row.holder = holder

/-- A row that the plaintext opens settles whom it opens for. -/
theorem SecretsHeld.opensFor (h : SecretsHeld argon2 s l) {row : ApiKeyRow} (hrow : row ∈ s.keys)
    (hopens : argon2.verify plaintext row.keyHash = true) : OpensFor argon2 plaintext row.holder s l := by
  refine ⟨h, h.seen row hrow plaintext hopens, fun i hash hphase => ?_, fun other hother hopens' => ?_⟩
  · have hclosed := h.unstored i _ _ hphase row hrow
    rw [hopens] at hclosed
    cases hclosed
  · rw [h.apart other hother row hrow plaintext hopens' hopens]

theorem OpensFor.kept {holder : Uuid × Uuid × Uuid} (h : OpensFor argon2 plaintext holder s l)
    (haccepts : s.answers argon2 step.op step.answer) (hlocal : (l i).accepts step) :
    OpensFor argon2 plaintext holder (s.next step) (Function.update l i ((l i).next argon2 step)) := by
  refine ⟨h.toSecretsHeld.kept haccepts hlocal, issued_of_next h.known, fun j hash hj => ?_,
    fun row hrow hopens => ?_⟩
  · rcases generated_of_update hj with ⟨-, keyPrefix, rfl⟩ | ⟨hheld, -⟩
    · exact haccepts.1 h.known
    · exact h.ungenerated j hash hheld
  · rcases holder_of_next haccepts hrow with ⟨old, hold, hholder, hhash⟩ | hstored
    · rw [← hholder]
      exact h.holders old hold (by rw [hhash]; exact hopens)
    · -- the hash has just been written by a request that had generated its plaintext
      obtain ⟨plaintext', hphase⟩ := stored_of_accepts hstored hlocal
      have hopens' := (h.held i _ _ hphase).1
      rw [argon2.exclusive _ _ _ hopens' hopens] at hphase
      exact absurd hphase (h.ungenerated i _)

end Step

/-! ## Where a request has its key from -/

/-- The row was enabled in the table at some point of the history, and the plaintext opens it. -/
def WasEnabled (argon2 : Argon2) (s : KeyWorld) (tr : KeyHistory) (plaintext : String) (key : ApiKeyRow) : Prop :=
  ∃ before after, tr = before ++ after ∧ key ∈ (worldAfter argon2 s before).keys ∧ key.disabled = false
    ∧ argon2.verify plaintext key.keyHash = true

theorem WasEnabled.append {argon2 : Argon2} {s : KeyWorld} {tr : KeyHistory} {plaintext : String}
    {key : ApiKeyRow} (h : WasEnabled argon2 s tr plaintext key) (more : KeyHistory) :
    WasEnabled argon2 s (tr ++ more) plaintext key := by
  obtain ⟨before, after, rfl, hrest⟩ := h
  exact ⟨before, after ++ more, by simp, hrest⟩

section Runs

variable {argon2 : Argon2} {env : Environment KeyStore} {auth : String} {tr : List (Step KeyStore)}
  {key : ApiKeyRow}

/-- The lookup has given the row to the request. -/
def LookedUp (argon2 : Argon2) (auth : String) (key : ApiKeyRow) (tr : List (Step KeyStore)) : Prop :=
  ∃ keyPrefix candidates, (⟨.getByPrefix keyPrefix, .ok candidates⟩ : Step KeyStore) ∈ tr
    ∧ candidates.find? (fun key => argon2.verify auth key.keyHash) = some key

/-- The key has not expired at a reading of the clock. -/
def ReadInTime (key : ApiKeyRow) (tr : List (Step KeyStore)) : Prop :=
  ∃ now : Timestamp, (⟨.now, now⟩ : Step KeyStore) ∈ tr ∧ ∀ e, key.expiresAt = some e → now ≤ e

theorem LookedUp.cons (step : Step KeyStore) (h : LookedUp argon2 auth key tr) :
    LookedUp argon2 auth key (step :: tr) := by
  obtain ⟨keyPrefix, candidates, hmem, hfind⟩ := h
  exact ⟨keyPrefix, candidates, List.mem_cons_of_mem _ hmem, hfind⟩

theorem ReadInTime.cons (step : Step KeyStore) (h : ReadInTime key tr) : ReadInTime key (step :: tr) := by
  obtain ⟨now, hmem, hexpiry⟩ := h
  exact ⟨now, List.mem_cons_of_mem _ hmem, hexpiry⟩

theorem le_of_usable {now e : Timestamp} (h : usableFromCache key now = true) (he : key.expiresAt = some e) :
    now ≤ e := by
  have h : key.disabled = false ∧ now < e := by simpa [usableFromCache, he] using h
  exact Int.le_of_lt h.2

theorem le_of_not_expired {now e : Timestamp} (h : ¬ (key.disabled || expiredAt key now) = true)
    (he : key.expiresAt = some e) : now ≤ e := by
  by_contra hlate
  exact h (by simp [expiredAt, he, Int.not_le.1 hlate])

theorem apiKeyAuthFallback_passes (h : (apiKeyAuthFallback argon2 auth).Runs env tr (.ok key)) :
    LookedUp argon2 auth key tr ∧ ReadInTime key tr := by
  unfold apiKeyAuthFallback at h
  cases hextract : extractPrefix auth with
  | none =>
      rw [hextract] at h
      cases h
  | some keyPrefix =>
      rw [hextract] at h
      obtain ⟨fetched, rest, rfl, -, h⟩ := Program.runs_perform_bind_iff.1 h
      cases fetched with
      | error e => cases h
      | ok candidates =>
          dsimp only at h
          cases hfind : candidates.find? fun key => argon2.verify auth key.keyHash with
          | none =>
              rw [hfind] at h
              cases h
          | some found =>
              rw [hfind] at h
              obtain ⟨now, rest, rfl, -, h⟩ := Program.runs_perform_bind_iff.1 h
              split at h
              · cases h
              case isFalse hvalid =>
                obtain ⟨inserted, rest, rfl, -, h⟩ := Program.runs_perform_bind_iff.1 h
                obtain ⟨rfl, hkey⟩ := Program.runs_pure_iff.1 h
                cases hkey
                exact ⟨⟨keyPrefix, candidates, List.mem_cons_self, hfind⟩,
                  now, List.mem_cons_of_mem _ List.mem_cons_self, fun e he => le_of_not_expired hvalid he⟩

/-- A request that passes got its key from the cache or from the table, and it had not expired. -/
theorem apiKeyAuth_key {authorization : Option String}
    (h : (apiKeyAuth argon2 authorization).Runs env tr (.ok key)) :
    ∃ auth, bearerToken authorization = some auth
      ∧ ((⟨.cacheGet auth, some key⟩ : Step KeyStore) ∈ tr ∨ LookedUp argon2 auth key tr)
      ∧ ReadInTime key tr := by
  unfold apiKeyAuth at h
  cases hauth : bearerToken authorization with
  | none =>
      rw [hauth] at h
      cases h
  | some auth =>
      rw [hauth] at h
      obtain ⟨cached, rest, rfl, -, h⟩ := Program.runs_perform_bind_iff.1 h
      cases cached with
      | none =>
          obtain ⟨hlooked, hread⟩ := apiKeyAuthFallback_passes h
          exact ⟨auth, rfl, .inr (hlooked.cons _), hread.cons _⟩
      | some cached =>
          obtain ⟨now, rest, rfl, -, h⟩ := Program.runs_perform_bind_iff.1 h
          split at h
          case isTrue husable =>
            obtain ⟨rfl, hkey⟩ := Program.runs_pure_iff.1 h
            cases hkey
            exact ⟨auth, rfl, .inl List.mem_cons_self, now, List.mem_cons_of_mem _ List.mem_cons_self,
              fun e he => le_of_usable husable he⟩
          case isFalse =>
            obtain ⟨hlooked, hread⟩ := apiKeyAuthFallback_passes h
            exact ⟨auth, rfl, .inr ((hlooked.cons _).cons _), (hread.cons _).cons _⟩

/-- A request that holds a row has looked it up. -/
theorem lookedUp_of_found {l : KeyLocal}
    (h : ((keyLocal argon2).after l tr).phase = .found auth key) :
    l.phase = .found auth key ∨ LookedUp argon2 auth key tr := by
  induction tr generalizing l with
  | nil => exact .inl h
  | cons step rest ih =>
      rcases ih h with hnext | hlooked
      · rcases found_of_next hnext with hold | ⟨keyPrefix, candidates, rfl, hfind⟩
        · exact .inl hold
        · exact .inr ⟨keyPrefix, candidates, List.mem_cons_self, hfind⟩
      · exact .inr (hlooked.cons _)

end Runs

/-! ## Histories -/

/-- Whoever passes presents a token that opens a key which was enabled in the table and had not expired,
    and a token lets through as one holder only. -/
structure GenuineKeys (argon2 : Argon2) (s : KeyWorld) (requests : Nat → KeyTraffic) (tr : KeyHistory) : Prop where
  genuine : ∀ i authorization key, requests i = .authenticated authorization →
    Returns anyAnswer (KeyTraffic.serve argon2) requests tr i (.ok (.passed key)) →
    ∃ auth, bearerToken authorization = some auth ∧ WasEnabled argon2 s tr auth key
      ∧ ReadInTime key (ownSteps i tr)
  same : ∀ i j authorization authorization' key key', requests i = .authenticated authorization →
    requests j = .authenticated authorization' →
    Returns anyAnswer (KeyTraffic.serve argon2) requests tr i (.ok (.passed key)) →
    Returns anyAnswer (KeyTraffic.serve argon2) requests tr j (.ok (.passed key')) →
    bearerToken authorization = bearerToken authorization' → key.holder = key'.holder

section History

variable {argon2 : Argon2} {s : KeyWorld} {requests : Nat → KeyTraffic} {tr : KeyHistory}

/-- What a request has looked up was enabled in the table. -/
theorem wasEnabled_of_lookedUp
    (h : Interleaved (keyWorld argon2) anyAnswer (KeyTraffic.serve argon2) requests s tr) {i : Nat}
    {auth : String} {key : ApiKeyRow} (hlooked : LookedUp argon2 auth key (ownSteps i tr)) :
    WasEnabled argon2 s tr auth key := by
  obtain ⟨keyPrefix, candidates, hmem, hfind⟩ := hlooked
  obtain ⟨before, after, rfl⟩ := List.append_of_mem (mem_ownSteps.1 hmem)
  exact ⟨before, _, rfl, enabled_of_candidate h.accepts hfind⟩

/-- From an empty cache, what is cached for a token was enabled in the table. -/
theorem wasEnabled_of_cached (hcache : ∀ auth, s.cache auth = none)
    (h : Interleaved (keyWorld argon2) anyAnswer (KeyTraffic.serve argon2) requests s tr) {auth : String}
    {key : ApiKeyRow} (hcached : (worldAfter argon2 s tr).cache auth = some key) :
    WasEnabled argon2 s tr auth key := by
  induction tr using List.reverseRecOn with
  | nil =>
      rw [show (worldAfter argon2 s []).cache auth = s.cache auth from rfl, hcache] at hcached
      cases hcached
  | append_singleton earlier entry ih =>
      obtain ⟨i, step⟩ := entry
      rw [worldAfter, after_sharedSteps_snoc] at hcached
      rcases cache_of_next (worldAfter argon2 s earlier) step auth with hsame | ⟨key', answer, rfl⟩
      · exact (ih h.of_append (hsame ▸ hcached)).append _
      · have hkey : key' = key := by simpa [KeyWorld.next] using hcached
        rw [hkey] at h
        have hphase : (Interleaved.locals (L := keyLocal argon2) KeyLocal.start requests earlier i).phase
            = .found auth key := h.locally_accepts KeyTraffic.locally_safe
        rcases lookedUp_of_found hphase with hstart | hlooked
        · cases hrequest : requests i with
          | admin r =>
              rw [hrequest] at hstart
              cases hstart
          | authenticated authorization =>
              rw [hrequest] at hstart
              cases hstart
        · exact (wasEnabled_of_lookedUp h.of_append hlooked).append _

/-- A request that passes does so with a row that was enabled in the table. -/
theorem wasEnabled_of_passes (hcache : ∀ auth, s.cache auth = none)
    (h : Interleaved (keyWorld argon2) anyAnswer (KeyTraffic.serve argon2) requests s tr) {i : Nat}
    {authorization : Option String} {key : ApiKeyRow} (hrequest : requests i = .authenticated authorization)
    (hreturns : Returns anyAnswer (KeyTraffic.serve argon2) requests tr i (.ok (.passed key))) :
    ∃ auth, bearerToken authorization = some auth ∧ WasEnabled argon2 s tr auth key
      ∧ ReadInTime key (ownSteps i tr) := by
  rw [Returns, hrequest] at hreturns
  obtain ⟨outcome, first, second, hown, hrun, hpure⟩ := hreturns.bind_ok
  obtain ⟨rfl, hkey⟩ := Program.runs_pure_iff.1 hpure
  cases hkey
  rw [List.append_nil] at hown
  obtain ⟨result, hrun, hresult⟩ := Program.runs_mapError_iff.1 hrun
  cases result with
  | error e => cases hresult
  | ok key =>
      cases hresult
      obtain ⟨auth, hauth, hfrom, hread⟩ := apiKeyAuth_key hrun
      rw [← hown] at hfrom hread
      refine ⟨auth, hauth, ?_, hread⟩
      rcases hfrom with hcached | hlooked
      · obtain ⟨before, after, rfl⟩ := List.append_of_mem (mem_ownSteps.1 hcached)
        have hcached : some key = (worldAfter argon2 s before).cache auth := h.accepts
        exact (wasEnabled_of_cached hcache h.of_append hcached.symm).append _
      · exact wasEnabled_of_lookedUp h hlooked

/-- Two rows that one token opens, at whatever points of a history, have one holder. -/
theorem holder_of_wasEnabled (hsecrets : Secrets argon2 s)
    (h : Interleaved (keyWorld argon2) anyAnswer (KeyTraffic.serve argon2) requests s tr) {auth : String}
    {key key' : ApiKeyRow} (hkey : WasEnabled argon2 s tr auth key)
    (hkey' : WasEnabled argon2 s tr auth key') : key.holder = key'.holder := by
  -- It is enough to look at the two points in their order.
  have hordered : ∀ {before middle : KeyHistory} {key key' : ApiKeyRow},
      Interleaved (keyWorld argon2) anyAnswer (KeyTraffic.serve argon2) requests s (before ++ middle) →
      key ∈ (worldAfter argon2 s before).keys → argon2.verify auth key.keyHash = true →
      key' ∈ (worldAfter argon2 s (before ++ middle)).keys → argon2.verify auth key'.keyHash = true →
      key'.holder = key.holder := by
    intro before middle key key' h hrow hopens hrow' hopens'
    have hheld := secretsHeld_of_history hsecrets h.of_append
    have hlast := h.invariant (J := OpensFor argon2 auth key.holder) (C := fun _ _ _ _ => True)
      KeyTraffic.locally_safe (fun _ _ _ _ hJ haccepts hlocal _ => hJ.kept haccepts hlocal)
      (hheld.opensFor hrow hopens) fun _ _ _ _ _ => trivial
    exact hlast.holders key' hrow' hopens'
  obtain ⟨before, after, hsplit, hrow, -, hopens⟩ := hkey
  obtain ⟨before', after', hsplit', hrow', -, hopens'⟩ := hkey'
  rcases List.append_eq_append_iff.1 (hsplit.symm.trans hsplit') with ⟨z, rfl, -⟩ | ⟨z, rfl, -⟩
  · rw [hsplit'] at h
    exact (hordered h.of_append hrow hopens hrow' hopens').symm
  · rw [hsplit] at h
    exact hordered h.of_append hrow' hopens' hrow hopens

/-- In every history from an empty cache the keys that let requests through are genuine. -/
theorem authentication_genuine (argon2 : Argon2) (s : KeyWorld) (requests : Nat → KeyTraffic) (tr : KeyHistory)
    (hsecrets : Secrets argon2 s) (hcache : ∀ auth, s.cache auth = none)
    (h : Interleaved (keyWorld argon2) anyAnswer (KeyTraffic.serve argon2) requests s tr) :
    GenuineKeys argon2 s requests tr := by
  refine ⟨fun i authorization key hrequest hreturns => wasEnabled_of_passes hcache h hrequest hreturns, ?_⟩
  intro i j authorization authorization' key key' hrequest hrequest' hreturns hreturns' hsame
  obtain ⟨auth, hauth, hkey, -⟩ := wasEnabled_of_passes hcache h hrequest hreturns
  obtain ⟨auth', hauth', hkey', -⟩ := wasEnabled_of_passes hcache h hrequest' hreturns'
  rw [hauth, hauth'] at hsame
  cases hsame
  exact holder_of_wasEnabled hsecrets h hkey hkey'

end History

/-- Two requests with the sample key: the first finds it in the table, the second in the cache. -/
def passedTwiceRequests : Nat → KeyTraffic
  | 0 => .authenticated (some "Bearer sk-godwit-first")
  | 1 => .authenticated (some "Bearer sk-godwit-first")
  | _ => .authenticated none

/-- The key is checked against its hash, and found in the cache the second time. -/
def passedTwice : KeyHistory :=
  [(0, ⟨.cacheGet "sk-godwit-first", none⟩),
    (0, ⟨.getByPrefix "first", .ok [sampleKeyRow]⟩),
    (0, ⟨.now, (0 : Int)⟩),
    (0, ⟨.cacheInsert "sk-godwit-first" sampleKeyRow, ()⟩),
    (1, ⟨.cacheGet "sk-godwit-first", some sampleKeyRow⟩),
    (1, ⟨.now, (1 : Int)⟩)]

theorem authentication_genuine_sample :
    Returns anyAnswer (KeyTraffic.serve sampleArgon2) passedTwiceRequests passedTwice 1
        (.ok (.passed sampleKeyRow))
      ∧ GenuineKeys sampleArgon2 sampleKeyWorld passedTwiceRequests passedTwice := by
  have hhistory : Interleaved (keyWorld sampleArgon2) anyAnswer (KeyTraffic.serve sampleArgon2)
      passedTwiceRequests sampleKeyWorld passedTwice := by
    refine ⟨⟨rfl, List.Perm.refl _, trivial, trivial, rfl, trivial, trivial⟩, fun i => ?_⟩
    rcases i with _ | _ | i
    · exact ⟨[], _, .op trivial (.op trivial (.op trivial (.op trivial (.pure _))))⟩
    · exact ⟨[], _, .op trivial (.op trivial (.pure _))⟩
    · exact ⟨[], _, .throw _⟩
  refine ⟨?_, authentication_genuine _ _ _ _ sampleSecrets (fun _ => rfl) hhistory⟩
  exact .op trivial (.op trivial (.pure _))

end Godwit
