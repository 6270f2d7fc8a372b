import Godwit.Admin.Proofs.Tokens

set_option autoImplicit false

/-! # Rotation of refresh tokens

A refresh looks its token up, deletes it and issues a new pair. The deletion does not look whether there
was anything to delete, so two refreshes that have both looked the token up both go on. Where every
deletion finds the row that was looked up, a token is good for one pair. -/

namespace Godwit

section Runs

variable {state : AuthState} {env : Environment AccountStore}

/-- The steps of a refresh that returns a pair. -/
theorem refresh_runs {presented : PresentedToken} {token : String} (htoken : presented.token = some token)
    {tr : List (Step AccountStore)} {pair : TokenPair}
    (h : (refresh state presented).Runs env tr (.ok pair)) :
    ∃ stored now user rest, tr = ⟨.getRefreshToken (state.hashToken token), .ok stored⟩ :: ⟨.now, now⟩
      :: ⟨.getUserById stored.userId, .ok user⟩ :: ⟨.deleteRefreshToken stored.id, .ok ()⟩ :: rest := by
  unfold refresh at h
  rw [htoken] at h
  obtain ⟨fetched, tr, rfl, -, h⟩ := Program.runs_perform_bind_iff.1 h
  cases fetched with
  | error e => cases h
  | ok stored =>
      obtain ⟨now, tr, rfl, -, h⟩ := Program.runs_perform_bind_iff.1 h
      split at h
      · obtain ⟨executed, tr, rfl, -, h⟩ := Program.runs_perform_bind_iff.1 h
        cases h
      · obtain ⟨fetched, tr, rfl, -, h⟩ := Program.runs_perform_bind_iff.1 h
        cases fetched with
        | error e => cases h
        | ok user =>
            obtain ⟨executed, tr, rfl, -, h⟩ := Program.runs_perform_bind_iff.1 h
            cases executed with
            | error e => cases h
            | ok done => exact ⟨stored, now, user, tr, rfl⟩

end Runs

/-- Of the requests that present a token at most one returns a pair. -/
def SingleUse (state : AuthState) (requests : Nat → AccountRequest) (tr : AccountHistory) : Prop :=
  ∀ token i j presented presented' pair pair',
    requests i = .refresh presented → presented.token = some token →
    requests j = .refresh presented' → presented'.token = some token →
    Returns anyAnswer (AccountRequest.serve state) requests tr i (.ok (.tokens pair)) →
    Returns anyAnswer (AccountRequest.serve state) requests tr j (.ok (.tokens pair')) → i = j

/-- A refresh that has loaded the owner of its token deletes the row that it has looked up. -/
def RotatesStored (state : AuthState) (s : AccountWorld) (tr : AccountHistory) : Prop :=
  ∀ before i after hash (stored : RefreshToken) user,
    tr = before ++ (i, ⟨.deleteRefreshToken stored.id, .ok ()⟩) :: after →
    (⟨.getRefreshToken hash, .ok stored⟩ : Step AccountStore) ∈ ownSteps i before →
    (⟨.getUserById stored.userId, .ok user⟩ : Step AccountStore) ∈ ownSteps i before →
    stored ∈ (accountsAfter state s before).refreshTokens

section History

variable {state : AuthState} {requests : Nat → AccountRequest} {s : AccountWorld} {tr : AccountHistory}

/-- Where a refresh that returned a pair deleted its token. -/
theorem rotation_of_returns {i : Nat} {presented : PresentedToken} {token : String} {pair : TokenPair}
    (hrequest : requests i = .refresh presented) (htoken : presented.token = some token)
    (hreturns : Returns anyAnswer (AccountRequest.serve state) requests tr i (.ok (.tokens pair))) :
    ∃ before after, ∃ stored : RefreshToken, ∃ user,
      tr = before ++ (i, ⟨.deleteRefreshToken stored.id, .ok ()⟩) :: after
      ∧ (⟨.getRefreshToken (state.hashToken token), .ok stored⟩ : Step AccountStore) ∈ ownSteps i before
      ∧ (⟨.getUserById stored.userId, .ok user⟩ : Step AccountStore) ∈ ownSteps i before := by
  have hrun : ((AccountRequest.refresh presented).serve state).Runs anyAnswer (ownSteps i tr)
      (.ok (.tokens pair)) := hrequest ▸ hreturns
  obtain ⟨pair', first, second, hown, hrefresh, hpure⟩ := hrun.bind_ok
  obtain ⟨stored, now, user, rest, rfl⟩ := refresh_runs htoken hrefresh
  have hparts : ownSteps i tr = [⟨.getRefreshToken (state.hashToken token), .ok stored⟩, ⟨.now, now⟩,
      ⟨.getUserById stored.userId, .ok user⟩] ++ ⟨.deleteRefreshToken stored.id, .ok ()⟩
        :: (rest ++ second) := by
    simpa using hown
  obtain ⟨before, after, hsplit, hbefore, -⟩ := exists_split_of_ownSteps hparts
  exact ⟨before, after, stored, user, hsplit, by simp [hbefore], by simp [hbefore]⟩

/-- A token that is looked up has the hash it is looked up by. -/
theorem tokenHash_of_lookup (h : AccountsInterleaved state requests s tr) {i : Nat} {hash : String}
    {stored : RefreshToken} (hmem : (i, ⟨.getRefreshToken hash, .ok stored⟩) ∈ tr) :
    stored.tokenHash = hash := by
  obtain ⟨before, haccepts⟩ := h.accepts_of_mem hmem
  exact haccepts.2

/-- Once the row of a hash is deleted, no row has the hash any more. -/
theorem gone_after_delete (hhashes : TokenHashes s) {i : Nat} {stored : RefreshToken}
    {before middle : AccountHistory}
    (h : AccountsInterleaved state requests s
      (before ++ (i, ⟨.deleteRefreshToken stored.id, .ok ()⟩) :: middle))
    (hstored : stored ∈ (accountsAfter state s before).refreshTokens) :
    ∀ token ∈ (accountsAfter state s
        (before ++ (i, ⟨.deleteRefreshToken stored.id, .ok ()⟩) :: middle)).refreshTokens,
      token.tokenHash ≠ stored.tokenHash := by
  have hheld := hashesHeld_of_history hhashes h.of_append
  have hsnoc : before ++ (i, ⟨.deleteRefreshToken stored.id, .ok ()⟩) :: middle
      = (before ++ [(i, ⟨.deleteRefreshToken stored.id, .ok ()⟩)]) ++ middle := by simp
  rw [hsnoc] at h ⊢
  have hspent := hashSpent_of_history h.of_append (hheld.spent (.inl ⟨stored, hstored, rfl⟩))
  refine refreshTokens_of_spent h hspent (fun token hmem hhash => ?_)
  -- The only row with the hash is the one that has just been deleted.
  have hleft : token ∈ (accountsAfter state s before).refreshTokens ∧ token.id ≠ stored.id := by
    rw [accountsAfter, after_sharedSteps_snoc] at hmem
    simpa [AccountWorld.next, Table.mem_delete] using hmem
  exact hleft.2 (by rw [hheld.refreshApart token hleft.1 stored hstored hhash])

/-- Where refreshes delete what they have looked up, refresh tokens are single-use. -/
theorem refresh_single_use (state : AuthState) (s : AccountWorld) (requests : Nat → AccountRequest)
    (tr : AccountHistory) (hhashes : TokenHashes s) (h : AccountsInterleaved state requests s tr)
    (hrotates : RotatesStored state s tr) : SingleUse state requests tr := by
  intro token i j presented presented' pair pair' hi hpresented hj hpresented' hreturns hreturns'
  by_contra hne
  obtain ⟨before, after, stored, user, hsplit, hlookup, huser⟩ := rotation_of_returns hi hpresented hreturns
  obtain ⟨before', after', stored', user', hsplit', hlookup', huser'⟩ :=
    rotation_of_returns hj hpresented' hreturns'
  have hthere := hrotates _ _ _ _ _ _ hsplit hlookup huser
  have hthere' := hrotates _ _ _ _ _ _ hsplit' hlookup' huser'
  have hhash : stored.tokenHash = state.hashToken token :=
    tokenHash_of_lookup h (hsplit ▸ List.mem_append_left _ (mem_ownSteps.1 hlookup))
  have hhash' : stored'.tokenHash = state.hashToken token :=
    tokenHash_of_lookup h (hsplit' ▸ List.mem_append_left _ (mem_ownSteps.1 hlookup'))
  -- The deletion that comes second does not find its row.
  rcases split_order hsplit hsplit' with hsame | ⟨z, rfl⟩ | ⟨z, rfl⟩
  · exact hne (congrArg Prod.fst hsame)
  · have hearlier := (hsplit' ▸ h).of_append
    exact gone_after_delete hhashes hearlier hthere stored' hthere' (hhash'.trans hhash.symm)
  · have hearlier := (hsplit ▸ h).of_append
    exact gone_after_delete hhashes hearlier hthere' stored hthere (hhash.trans hhash'.symm)

end History

/-! ## Two histories -/

/-- A refresh token of the user 3. -/
def sampleToken : RefreshToken := ⟨7, 3, "sha256:first", 1000, 0⟩

/-- One refresh token is stored. -/
def sampleSessions : AccountWorld :=
  { sampleAccounts with
    refreshTokens := ⟨[sampleToken], by decide⟩
    seen := ["sha256:first"] }

theorem sampleSessions_hashes : TokenHashes sampleSessions := by
  have htoken : ∀ token ∈ sampleSessions.refreshTokens, token = sampleToken := fun token hmem =>
    List.mem_singleton.1 hmem
  refine ⟨?_, fun token hmem token' hmem' _ => ?_, fun token hmem => by cases hmem⟩
  · rintro hash (⟨token, hmem, rfl⟩ | ⟨token, hmem, -⟩)
    · rw [htoken token hmem]
      decide
    · cases hmem
  · rw [htoken token hmem, htoken token' hmem']

/-- The steps of a refresh that issues the token `plaintext` as row `id`. -/
def issueSteps (id : Uuid) (plaintext : String) : List (Step AccountStore) :=
  [⟨.issueAccessToken ⟨3, 10, "user"⟩, .ok "jwt"⟩,
    ⟨.generateRefreshToken, ⟨plaintext, "sha256:" ++ plaintext⟩⟩,
    ⟨.now, (2 : Int)⟩,
    ⟨.createRefreshToken 3 ("sha256:" ++ plaintext) (2 + 7 * microsecondsPerDay),
      .ok ⟨id, 3, "sha256:" ++ plaintext, 2 + 7 * microsecondsPerDay, 2⟩⟩]

/-- What a refresh reads before it deletes the token. -/
def readSteps : List (Step AccountStore) :=
  [⟨.getRefreshToken "sha256:first", .ok sampleToken⟩, ⟨.now, (1 : Int)⟩,
    ⟨.getUserById 3, .ok (sampleUser 3 "ann" "user")⟩]

/-- The steps of a refresh with the token, which issues `plaintext` as row `id`. -/
def rotationSteps (id : Uuid) (plaintext : String) : List (Step AccountStore) :=
  readSteps ++ ⟨.deleteRefreshToken 7, .ok ()⟩ :: issueSteps id plaintext

/-- Such a refresh returns a pair. -/
def RotationReturns (id : Uuid) (plaintext : String) : Prop :=
  ∃ pair, ((AccountRequest.refresh ⟨none, some "first"⟩).serve sampleAuthState).Runs anyAnswer
    (rotationSteps id plaintext) (.ok (.tokens pair))

theorem rotation_second : RotationReturns 8 "second" :=
  ⟨_, .op trivial (.op trivial (.op trivial (.op trivial (.op trivial (.op trivial (.op trivial
    (.op trivial (.pure _))))))))⟩

theorem rotation_third : RotationReturns 9 "third" :=
  ⟨_, .op trivial (.op trivial (.op trivial (.op trivial (.op trivial (.op trivial (.op trivial
    (.op trivial (.pure _))))))))⟩

/-- The token is presented twice, the other requests present none. -/
def presentedTwice : Nat → AccountRequest
  | 0 => .refresh ⟨none, some "first"⟩
  | 1 => .refresh ⟨none, some "first"⟩
  | _ => .refresh ⟨none, none⟩

/-- The second request begins when the first has returned. -/
def rotatedInTurn : AccountHistory :=
  (readSteps ++ ⟨.deleteRefreshToken 7, .ok ()⟩ :: issueSteps 8 "second").map (0, ·)
    ++ [(1, ⟨.getRefreshToken "sha256:first", .error .notFound⟩)]

theorem refresh_single_use_sample :
    AccountsInterleaved sampleAuthState presentedTwice sampleSessions rotatedInTurn
      ∧ SingleUse sampleAuthState presentedTwice rotatedInTurn := by
  have hhistory : AccountsInterleaved sampleAuthState presentedTwice sampleSessions rotatedInTurn := by
    refine ⟨⟨⟨List.mem_cons_self, rfl⟩, trivial, rfl, trivial, trivial, ⟨rfl, by decide⟩, trivial,
      ⟨rfl, by decide, rfl⟩, ?_, trivial⟩, fun i => ?_⟩
    · show ∀ token ∈ _, _
      decide
    · match i with
      | 0 =>
          obtain ⟨pair, hrun⟩ := rotation_second
          have hown : ownSteps 0 rotatedInTurn = rotationSteps 8 "second" := rfl
          exact ⟨[], _, by rwa [List.append_nil, hown]⟩
      | 1 => exact ⟨[], _, .op trivial (.throw _)⟩
      | i + 2 => exact ⟨[], _, .throw _⟩
  refine ⟨hhistory, refresh_single_use _ _ _ _ sampleSessions_hashes hhistory ?_⟩
  intro before i after hash stored user hsplit hlookup huser
  -- The fourth step is the only deletion, and the row is there.
  rcases before with _ | ⟨a, _ | ⟨b, _ | ⟨c, _ | ⟨d, before⟩⟩⟩⟩
  · cases hsplit
  · cases hsplit
  · cases hsplit
  · simp only [rotatedInTurn, readSteps, issueSteps, List.map_cons, List.map_nil, List.cons_append,
      List.nil_append, List.cons.injEq] at hsplit
    obtain ⟨rfl, rfl, rfl, -, -⟩ := hsplit
    have hmem := mem_ownSteps.1 hlookup
    simp only [List.mem_cons, List.not_mem_nil, or_false] at hmem
    rcases hmem with hmem | hmem | hmem
    · cases hmem
      exact List.mem_cons_self
    · cases hmem
    · cases hmem
  · simp only [rotatedInTurn, readSteps, issueSteps, List.map_cons, List.map_nil, List.cons_append,
      List.nil_append, List.cons.injEq] at hsplit
    have hmem : (i, (⟨.deleteRefreshToken stored.id, .ok ()⟩ : Step AccountStore))
        ∈ before ++ (i, ⟨.deleteRefreshToken stored.id, .ok ()⟩) :: after := by simp
    rw [← hsplit.2.2.2.2] at hmem
    simp only [List.mem_cons, List.not_mem_nil, or_false] at hmem
    rcases hmem with hmem | hmem | hmem | hmem | hmem <;> cases hmem

/-- Both requests have read the row before the first deletes it. -/
def rotatedAtOnce : AccountHistory :=
  readSteps.map (0, ·) ++ readSteps.map (1, ·)
    ++ (⟨.deleteRefreshToken 7, .ok ()⟩ :: issueSteps 8 "second").map (0, ·)
    ++ (⟨.deleteRefreshToken 7, .ok ()⟩ :: issueSteps 9 "third").map (1, ·)

/-- One token, two pairs. -/
theorem refresh_not_single_use :
    ¬ ∀ (s : AccountWorld) (requests : Nat → AccountRequest) (tr : AccountHistory), TokenHashes s →
      AccountsInterleaved sampleAuthState requests s tr → SingleUse sampleAuthState requests tr := by
  intro h
  obtain ⟨pair, hrun⟩ := rotation_second
  obtain ⟨pair', hrun'⟩ := rotation_third
  have hfirst : ownSteps 0 rotatedAtOnce = rotationSteps 8 "second" := rfl
  have hsecond : ownSteps 1 rotatedAtOnce = rotationSteps 9 "third" := rfl
  have hhistory : AccountsInterleaved sampleAuthState presentedTwice sampleSessions rotatedAtOnce := by
    refine ⟨⟨⟨List.mem_cons_self, rfl⟩, trivial, rfl, ⟨List.mem_cons_self, rfl⟩, trivial, rfl,
      trivial, trivial, ⟨rfl, by decide⟩, trivial, ⟨rfl, by decide, rfl⟩,
      trivial, trivial, ⟨rfl, by decide⟩, trivial, ⟨rfl, by decide, rfl⟩, trivial⟩, fun i => ?_⟩
    match i with
    | 0 => exact ⟨[], _, by rwa [List.append_nil, hfirst]⟩
    | 1 => exact ⟨[], _, by rwa [List.append_nil, hsecond]⟩
    | i + 2 => exact ⟨[], _, .throw _⟩
  have hsame : (0 : Nat) = 1 := h _ _ _ sampleSessions_hashes hhistory "first" 0 1 ⟨none, some "first"⟩
    ⟨none, some "first"⟩ pair pair' rfl rfl rfl rfl (by rwa [Returns, hfirst]) (by rwa [Returns, hsecond])
  cases hsame

end Godwit
