import Godwit.Admin.Proofs.Tokens

set_option autoImplicit false

/-! # Reset tokens

A reset reads its token, changes the password and marks the token used at the end. Between the reading and
the mark another reset can read the token unused, and a reset that fails in between never marks it. Where
every change finds the token unused and every earlier change through it marked, there is one change. -/

namespace Godwit

/-- The entry is a reset with this token that has changed the password hash of its user. -/
def ResetsThrough (requests : Nat → AccountRequest) (token : String) (entry : Nat × Step AccountStore) :
    Prop :=
  (∃ newPassword, requests entry.1 = .resetPassword token newPassword)
    ∧ ∃ userId hash expiresAt user, entry.2 = ⟨.updatePassword userId hash expiresAt, .ok user⟩

/-- No two steps of the history change a password through the token. -/
def UsedAtMostOnce (requests : Nat → AccountRequest) (tr : AccountHistory) (token : String) : Prop :=
  ∀ before entry middle entry' after, tr = before ++ entry :: (middle ++ entry' :: after) →
    ResetsThrough requests token entry → ¬ ResetsThrough requests token entry'

/-- Whenever a reset changes the password, the token that it has read is unchanged in the table, and every
    reset that has changed the password through the token before has marked it used. -/
def ResetsInTurn (state : AuthState) (s : AccountWorld) (requests : Nat → AccountRequest)
    (tr : AccountHistory) (token : String) : Prop :=
  ∀ before entry after, tr = before ++ entry :: after → ResetsThrough requests token entry →
    (∀ hash stored, (⟨.getResetToken hash, .ok stored⟩ : Step AccountStore) ∈ ownSteps entry.1 before →
        stored ∈ (accountsAfter state s before).resetTokens)
      ∧ ∀ earlier ∈ before, ResetsThrough requests token earlier →
        ∃ id, (earlier.1, ⟨.markResetTokenUsed id, .ok ()⟩) ∈ before

section Runs

variable {state : AuthState} {env : Environment AccountStore}

/-- A reset reads its token first, and goes on only with an unused one, which it may mark. -/
theorem resetPassword_runs {token newPassword : String} {tr : List (Step AccountStore)}
    {out : Except ApiError Unit} (h : (resetPassword state token newPassword).Runs env tr out) :
    ∃ fetched rest, tr = ⟨.getResetToken (state.hashToken token), fetched⟩ :: rest
      ∧ ∀ step ∈ rest, ∃ stored, fetched = .ok stored ∧ stored.used = false
        ∧ (PasswordOp stored.userId step.op ∨ step.op = .markResetTokenUsed stored.id) := by
  obtain ⟨fetched, rest, rfl, -, h⟩ := Program.runs_perform_bind_iff.1 h
  refine ⟨fetched, rest, rfl, ?_⟩
  cases fetched with
  | error e =>
      cases h
      exact fun step hstep => absurd hstep List.not_mem_nil
  | ok stored =>
      dsimp only at h
      split at h
      · cases h
        exact fun step hstep => absurd hstep List.not_mem_nil
      case isFalse hunused =>
        intro step hstep
        refine ⟨stored, rfl, by simpa using hunused, ?_⟩
        refine h.only (P := fun o => PasswordOp stored.userId o ∨ o = AccountOp.markResetTokenUsed stored.id) ?_
          step hstep
        refine .perform (.inl trivial) fun now => ?_
        split
        · exact trivial
        · refine .bind ((doPasswordChange_only stored.userId newPassword).mono fun o ho => .inl ho)
            fun _ => .perform (.inr rfl) fun _ => .ofExcept _

end Runs

section History

variable {state : AuthState} {requests : Nat → AccountRequest} {s : AccountWorld}
  {tr before : AccountHistory} {token : String}

/-- What a reset that has changed a password did before and since. -/
theorem reset_of_history (h : AccountsInterleaved state requests s before) {i : Nat} {newPassword : String}
    (hrequest : requests i = .resetPassword token newPassword) {step : Step AccountStore}
    (hstep : (i, step) ∈ before) (hop : ∀ hash, step.op ≠ .getResetToken hash) :
    ∃ stored first second,
      before = first ++ (i, ⟨.getResetToken (state.hashToken token), .ok stored⟩) :: second
      ∧ stored.used = false ∧ (i, step) ∈ second
      ∧ ∀ step ∈ ownSteps i second,
        PasswordOp stored.userId step.op ∨ step.op = .markResetTokenUsed stored.id := by
  obtain ⟨rest, out, hrun⟩ := h.own i
  rw [hrequest] at hrun
  obtain ⟨out, hreset⟩ := Program.Runs.of_bind_pure hrun
  obtain ⟨fetched, tail, htr, htail⟩ := resetPassword_runs hreset
  have hmem := mem_ownSteps.2 hstep
  cases hown : ownSteps i before with
  | nil =>
      rw [hown] at hmem
      cases hmem
  | cons head own =>
      rw [hown, List.cons_append] at htr
      obtain ⟨rfl, htailown⟩ := List.cons.inj htr
      have hfirst : ownSteps i before = [] ++ ⟨.getResetToken (state.hashToken token), fetched⟩ :: own := hown
      obtain ⟨first, second, hsplit, -, hsecond⟩ := exists_split_of_ownSteps hfirst
      have hin : step ∈ own := by
        rw [hown] at hmem
        rcases List.mem_cons.1 hmem with rfl | hin
        · exact absurd rfl (hop _)
        · exact hin
      have hall : ∀ step ∈ own, ∃ stored, fetched = .ok stored ∧ stored.used = false
          ∧ (PasswordOp stored.userId step.op ∨ step.op = .markResetTokenUsed stored.id) :=
        fun step hstep => htail step (htailown ▸ List.mem_append_left _ hstep)
      obtain ⟨stored, rfl, hunused, -⟩ := hall step hin
      refine ⟨stored, first, second, hsplit, hunused, mem_ownSteps.1 (hsecond ▸ hin), fun step hstep => ?_⟩
      obtain ⟨stored', hstored', -, hop⟩ := hall step (hsecond ▸ hstep)
      cases hstored'
      exact hop

/-- A reset token that is looked up is stored under the hash it is looked up by. -/
theorem resetToken_of_lookup {first second : AccountHistory} {i : Nat} {hash : String}
    {stored : PasswordResetToken}
    (h : AccountsInterleaved state requests s (first ++ (i, ⟨.getResetToken hash, .ok stored⟩) :: second)) :
    stored ∈ (accountsAfter state s first).resetTokens ∧ stored.tokenHash = hash :=
  h.accepts

/-- Once the token of a hash is marked, every token of the hash is used. -/
theorem used_after_mark (hhashes : TokenHashes s) {i j : Nat} {stored : PasswordResetToken}
    {first middle last : AccountHistory}
    (h : AccountsInterleaved state requests s
      ((first ++ (i, ⟨.getResetToken stored.tokenHash, .ok stored⟩) :: middle)
        ++ (j, ⟨.markResetTokenUsed stored.id, .ok ()⟩) :: last)) :
    ∀ token ∈ (accountsAfter state s
        ((first ++ (i, ⟨.getResetToken stored.tokenHash, .ok stored⟩) :: middle)
          ++ (j, ⟨.markResetTokenUsed stored.id, .ok ()⟩) :: last)).resetTokens,
      token.tokenHash = stored.tokenHash → token.used = true := by
  have hread := h.of_append
  obtain ⟨hstored, -⟩ := resetToken_of_lookup hread
  have hheld := hashesHeld_of_history hhashes hread.of_append
  have hspent := hheld.spent (.inr ⟨stored, hstored, rfl⟩)
  -- From the reading on every token of the hash is the row that was read.
  have hsame := resetTokens_of_spent (A := fun token => token.id = stored.id)
    (fun _ _ hid _ hA => hid.symm.trans hA) hread hspent
    (fun token hmem hhash => by rw [hheld.resetApart token hmem stored hstored hhash])
  have hsnoc : ∀ before : AccountHistory, before ++ (j, ⟨.markResetTokenUsed stored.id, .ok ()⟩) :: last
      = (before ++ [(j, ⟨.markResetTokenUsed stored.id, .ok ()⟩)]) ++ last := by simp
  rw [hsnoc] at h ⊢
  have hspent' := hashSpent_of_history h.of_append (hashSpent_of_history hread hspent)
  refine resetTokens_of_spent (A := fun token => token.used = true)
    (fun _ _ _ hused hA => hused hA) h hspent' (fun token hmem hhash => ?_)
  rw [accountsAfter, after_sharedSteps_snoc] at hmem
  obtain ⟨old, hold, rfl⟩ := (Table.mem_map (f := PasswordResetToken.markUsed stored.id) fun _ => rfl).1 hmem
  simp [PasswordResetToken.markUsed, hsame old hold hhash]

/-- Where resets with the token take turns, the password is changed through it at most once. -/
theorem resetToken_used_once (state : AuthState) (s : AccountWorld) (requests : Nat → AccountRequest)
    (tr : AccountHistory) (token : String) (hhashes : TokenHashes s)
    (h : AccountsInterleaved state requests s tr)
    (hturns : ResetsInTurn state s requests tr token) : UsedAtMostOnce requests tr token := by
  intro before entry middle entry' after hsplit hresets hresets'
  have hsplit' : tr = (before ++ entry :: middle) ++ entry' :: after := by rw [hsplit]; simp
  obtain ⟨hunchanged, hmarked⟩ := hturns _ _ _ hsplit' hresets'
  have hearlier : AccountsInterleaved state requests s (before ++ entry :: middle) :=
    (hsplit' ▸ h).of_append
  have hsnoc : tr = ((before ++ entry :: middle) ++ [entry']) ++ after := by rw [hsplit']; simp
  have hwhole : AccountsInterleaved state requests s ((before ++ entry :: middle) ++ [entry']) :=
    (hsnoc ▸ h).of_append
  -- The later reset has read an unused token, which is still there.
  obtain ⟨i, step⟩ := entry'
  obtain ⟨⟨newPassword, hrequest⟩, userId, hash, expiresAt, user, rfl⟩ := hresets'
  obtain ⟨stored, first, second, hread, hunused, -⟩ := reset_of_history hwhole hrequest
    (List.mem_append_right _ (List.mem_singleton.2 rfl)) (fun _ hop => by cases hop)
  have hreadmem : (i, (⟨.getResetToken (state.hashToken token), .ok stored⟩ : Step AccountStore))
      ∈ before ++ entry :: middle := by
    have hmem : (i, (⟨.getResetToken (state.hashToken token), .ok stored⟩ : Step AccountStore))
        ∈ (before ++ entry :: middle) ++ [(i, ⟨.updatePassword userId hash expiresAt, .ok user⟩)] := by
      rw [hread]
      simp
    rcases List.mem_append.1 hmem with hmem | hmem
    · exact hmem
    · cases List.mem_singleton.1 hmem
  have hthere := hunchanged _ stored (mem_ownSteps.2 hreadmem)
  have hhash : stored.tokenHash = state.hashToken token := (resetToken_of_lookup (hread ▸ hwhole)).2
  -- The earlier reset has marked the token that it had read, which is the same one.
  obtain ⟨id, hmark⟩ := hmarked entry (by simp) hresets
  obtain ⟨j, step⟩ := entry
  obtain ⟨⟨newPassword', hrequest'⟩, -⟩ := hresets
  obtain ⟨stored', first', second', hread', -, hmark', hown⟩ := reset_of_history hearlier hrequest' hmark
    (fun _ hop => by cases hop)
  have hid : id = stored'.id := by
    rcases hown _ (mem_ownSteps.2 hmark') with hop | hop
    · exact hop.elim
    · cases hop
      rfl
  obtain ⟨between, last, hsecond⟩ := List.append_of_mem hmark'
  have hhash' := (resetToken_of_lookup (hread' ▸ hearlier)).2
  have hwhole' : before ++ (j, step) :: middle
      = (first' ++ (j, ⟨.getResetToken stored'.tokenHash, .ok stored'⟩) :: between)
        ++ (j, ⟨.markResetTokenUsed stored'.id, .ok ()⟩) :: last := by
    rw [hread', hsecond, hhash', hid]
    simp
  rw [hwhole'] at hearlier hthere
  have hused := used_after_mark hhashes hearlier stored hthere (hhash.trans hhash'.symm)
  rw [hunused] at hused
  cases hused

end History

/-! ## Two histories -/

/-- A reset token of the user 3. -/
def sampleResetToken : PasswordResetToken := ⟨6, 3, "sha256:link", 1000, 0, false⟩

/-- One reset token was mailed. -/
def sampleResets : AccountWorld :=
  { sampleAccounts with
    resetTokens := ⟨[sampleResetToken], by decide⟩
    seen := ["sha256:link"] }

theorem sampleResets_hashes : TokenHashes sampleResets := by
  have htoken : ∀ token ∈ sampleResets.resetTokens, token = sampleResetToken := fun token hmem =>
    List.mem_singleton.1 hmem
  refine ⟨?_, fun token hmem => (by cases hmem), fun token hmem token' hmem' _ => ?_⟩
  · rintro hash (⟨token, hmem, -⟩ | ⟨token, hmem, rfl⟩)
    · cases hmem
    · rw [htoken token hmem]
      decide
  · rw [htoken token hmem, htoken token' hmem']

/-- The user 3 with the password `new`. -/
def sampleChangedUser : User :=
  { sampleUser 3 "ann" "user" with passwordHash := some "$argon2id$new", passwordChangedAt := some 2 }

/-- A reset up to the change of the password. -/
def resetSteps : List (Step AccountStore) :=
  [⟨.getResetToken "sha256:link", .ok sampleResetToken⟩, ⟨.now, (1 : Int)⟩, ⟨.getLastPasswords 3 5, .ok []⟩,
    ⟨.hashPassword "new", "$argon2id$new"⟩,
    ⟨.updatePassword 3 "$argon2id$new" none, .ok sampleChangedUser⟩]

/-- The link is used twice, the other requests present none. -/
def linkUsedTwice : Nat → AccountRequest
  | 0 => .resetPassword "link" "new"
  | 1 => .resetPassword "link" "new"
  | _ => .refresh ⟨none, none⟩

/-- What follows the change. -/
def resetDoneSteps : List (Step AccountStore) :=
  [⟨.pushPassword 3 "$argon2id$new", .ok ()⟩, ⟨.purgePasswords 3 5, .ok ()⟩,
    ⟨.deleteRefreshTokensOf 3, .ok (0 : Nat)⟩, ⟨.markResetTokenUsed 6, .ok ()⟩]

/-- The second reset begins when the first is done. -/
def resetInTurn : AccountHistory :=
  (resetSteps ++ resetDoneSteps).map (0, ·)
    ++ [(1, ⟨.getResetToken "sha256:link", .ok { sampleResetToken with used := true }⟩)]

theorem resetToken_used_once_sample :
    AccountsInterleaved sampleAuthState linkUsedTwice sampleResets resetInTurn
      ∧ UsedAtMostOnce linkUsedTwice resetInTurn "link" := by
  have hhistory : AccountsInterleaved sampleAuthState linkUsedTwice sampleResets resetInTurn := by
    refine ⟨⟨⟨List.mem_cons_self, rfl⟩, trivial, rfl, rfl, ⟨sampleUser 3 "ann" "user", rfl, rfl⟩,
      trivial, trivial, trivial, trivial, ⟨List.mem_cons_self, rfl⟩, trivial⟩, fun i => ?_⟩
    match i with
    | 0 =>
        exact ⟨[], _, .op trivial (.op trivial (.op trivial (.op trivial (.op trivial (.op trivial
          (.op trivial (.op trivial (.op trivial (.pure _)))))))))⟩
    | 1 => exact ⟨[], _, .op trivial (.throw _)⟩
    | i + 2 => exact ⟨[], _, .throw _⟩
  refine ⟨hhistory, resetToken_used_once _ _ _ _ _ sampleResets_hashes hhistory ?_⟩
  rintro before ⟨i, step⟩ after hsplit ⟨-, userId, hash, expiresAt, user, hstep⟩
  cases (hstep : step = _)
  -- The fifth step is the only change, and nothing has touched the token before it.
  rcases before with _ | ⟨a, _ | ⟨b, _ | ⟨c, _ | ⟨d, _ | ⟨e, before⟩⟩⟩⟩⟩
  · cases hsplit
  · cases hsplit
  · cases hsplit
  · cases hsplit
  · cases hsplit
    refine ⟨fun hash stored hread => ?_, fun earlier hearlier hresets => ?_⟩
    · have hmem := mem_ownSteps.1 hread
      simp only [List.mem_cons, List.not_mem_nil, or_false] at hmem
      rcases hmem with hmem | hmem | hmem | hmem
      · cases hmem
        exact List.mem_cons_self
      all_goals cases hmem
    · obtain ⟨-, userId, hash, expiresAt, user, hstep⟩ := hresets
      simp only [List.mem_cons, List.not_mem_nil, or_false] at hearlier
      rcases hearlier with rfl | rfl | rfl | rfl <;> cases hstep
  · simp only [resetInTurn, resetSteps, resetDoneSteps, List.map_cons, List.map_nil, List.cons_append,
      List.nil_append,
      List.cons.injEq] at hsplit
    have hmem : (i, (⟨.updatePassword userId hash expiresAt, .ok user⟩ : Step AccountStore))
        ∈ before ++ (i, ⟨.updatePassword userId hash expiresAt, .ok user⟩) :: after := by simp
    rw [← hsplit.2.2.2.2.2] at hmem
    simp only [List.mem_cons, List.not_mem_nil, or_false] at hmem
    rcases hmem with hmem | hmem | hmem | hmem | hmem <;> cases hmem

/-- The step that fails the first reset. -/
def resetFailedStep : Step AccountStore :=
  ⟨.pushPassword 3 "$argon2id$new", .error (.database "connection closed")⟩

/-- The first reset fails after the change, so the token stays unused. -/
def resetTwice : AccountHistory :=
  (resetSteps ++ [resetFailedStep]).map (0, ·) ++ resetSteps.map (1, ·)

/-- One link, two changes. -/
theorem resetToken_used_twice :
    ¬ ∀ (s : AccountWorld) (requests : Nat → AccountRequest) (tr : AccountHistory) (token : String),
      TokenHashes s → AccountsInterleaved sampleAuthState requests s tr →
      UsedAtMostOnce requests tr token := by
  intro h
  have hhistory : AccountsInterleaved sampleAuthState linkUsedTwice sampleResets resetTwice := by
    refine ⟨⟨⟨List.mem_cons_self, rfl⟩, trivial, rfl, rfl, ⟨sampleUser 3 "ann" "user", rfl, rfl⟩,
      trivial, ⟨List.mem_cons_self, rfl⟩, trivial, rfl, rfl, ⟨sampleChangedUser, rfl, rfl⟩, trivial⟩,
      fun i => ?_⟩
    match i with
    | 0 =>
        exact ⟨[], _, .op trivial (.op trivial (.op trivial (.op trivial (.op trivial (.op trivial
          (.throw _))))))⟩
    | 1 =>
        exact ⟨[resetFailedStep], _,
          .op trivial (.op trivial (.op trivial (.op trivial (.op trivial (.op trivial (.throw _))))))⟩
    | i + 2 => exact ⟨[], _, .throw _⟩
  refine h _ _ _ "link" sampleResets_hashes hhistory (resetTwice.take 4)
    (0, ⟨.updatePassword 3 "$argon2id$new" none, .ok sampleChangedUser⟩) ((resetTwice.drop 5).take 5)
    (1, ⟨.updatePassword 3 "$argon2id$new" none, .ok sampleChangedUser⟩) [] rfl
    ⟨⟨"new", rfl⟩, _, _, _, _, rfl⟩ ⟨⟨"new", rfl⟩, _, _, _, _, rfl⟩

end Godwit
