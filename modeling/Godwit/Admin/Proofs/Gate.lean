import Godwit.Admin.Proofs.Provenance
import Godwit.Lib.JsonLines

set_option autoImplicit false

/-! # Requests behind the middleware

Whoever acts behind `jwt_auth` acts with the claims of a token that was issued to a user who was authenticated, if
tokens cannot be forged (`acts_accountable`). A browser that keeps the cookies of a token pair presents this pair
again (`session_presented`). -/

namespace Godwit

/-! ## What is let through -/

section Admitted

variable {state : AuthState} {config : GateConfig} {env : Environment AccountStore} {requests : Nat → HttpRequest}
  {s : AccountWorld} {tr : AccountHistory} {i : Nat}

/-- A request that makes no step. -/
def stepless : SessionRequest := .account (.refresh ⟨none, none⟩)

/-- What the handlers get: a request that is refused never comes to one. -/
def HttpRequest.admitted (config : GateConfig) (r : HttpRequest) : SessionRequest :=
  (r.pass config).toOption.getD stepless

/-- The requests as they arrive, interleaved in any order. -/
abbrev HttpInterleaved (state : AuthState) (config : GateConfig) (requests : Nat → HttpRequest) (s : AccountWorld)
    (tr : AccountHistory) : Prop :=
  Interleaved (accountWorld state) anyAnswer (HttpRequest.serve state config) requests s tr

theorem HttpRequest.runs_of_ok {r : HttpRequest} {request : SessionRequest} {steps : List (Step AccountStore)}
    {out : Except HttpFault SessionResponse} (hpass : r.pass config = .ok request)
    (h : (r.serve state config).Runs env steps out) : ∃ outcome, (request.serve state).Runs env steps outcome := by
  rw [HttpRequest.serve, hpass] at h
  obtain ⟨outcome, hrun, -⟩ := Program.runs_mapError_iff.1 h
  exact ⟨outcome, hrun⟩

theorem HttpRequest.runs_of_error {r : HttpRequest} {e : HttpFault} {steps : List (Step AccountStore)}
    {out : Except HttpFault SessionResponse} (hpass : r.pass config = .error e)
    (h : (r.serve state config).Runs env steps out) : steps = [] := by
  rw [HttpRequest.serve, hpass] at h
  exact (Program.runs_throw_iff.1 h).1

/-- A request that is refused changes nothing. -/
theorem ownSteps_of_refused {e : HttpFault} (h : HttpInterleaved state config requests s tr)
    (hpass : (requests i).pass config = .error e) : ownSteps i tr = [] := by
  obtain ⟨rest, out, hrun⟩ := h.own i
  exact (List.append_eq_nil_iff.1 (HttpRequest.runs_of_error hpass hrun)).1

/-- The handlers see an interleaving of what is let through. -/
theorem sessionsInterleaved_of_http (h : HttpInterleaved state config requests s tr) :
    SessionsInterleaved state (fun n => (requests n).admitted config) s tr := by
  refine ⟨h.accepted, fun i => ?_⟩
  show ∃ rest out, (((requests i).admitted config).serve state).Runs anyAnswer (ownSteps i tr ++ rest) out
  cases hpass : (requests i).pass config with
  | error e =>
      refine ⟨[], .error .unauthorized, ?_⟩
      rw [ownSteps_of_refused h hpass, HttpRequest.admitted, hpass]
      exact .throw _
  | ok request =>
      obtain ⟨rest, out, hrun⟩ := h.own i
      obtain ⟨outcome, hserve⟩ := HttpRequest.runs_of_ok hpass hrun
      refine ⟨rest, outcome, ?_⟩
      rw [HttpRequest.admitted, hpass]
      exact hserve

end Admitted

/-! ## Who acts -/

/-- The check of the origin is off, not made for the method, or passed. -/
def FromOrigin (config : GateConfig) (method : Method) (head : RequestHead) : Prop :=
  config.allowedCookieOrigin = "" ∨ isStateChanging method = false
    ∨ head.origin = some config.allowedCookieOrigin

/-- A token that is accepted while its request runs had been issued, and for the claims that it is accepted
    with. -/
structure Unforged (config : GateConfig) (requests : Nat → HttpRequest) (tr : AccountHistory) : Prop where
  issued : ∀ before i step after token claims, tr = before ++ (i, step) :: after →
    (requests i).head.accessToken = some token → config.verify (requests i).time token = some claims →
    ∃ j claims', (j, (⟨.issueAccessToken claims', .ok token⟩ : Step AccountStore)) ∈ before
  faithful : ∀ j claims' token, (j, (⟨.issueAccessToken claims', .ok token⟩ : Step AccountStore)) ∈ tr →
    ∀ now claims, config.verify now token = some claims → claims = claims'

/-- What has let request `i` through after `before`. -/
inductive LetThrough (state : AuthState) (config : GateConfig) (requests : Nat → HttpRequest) (s : AccountWorld)
    (before : AccountHistory) (i : Nat) : Prop
  | unguarded {call : OpenCall} (hroute : (requests i).route = .unguarded call)
  | csrf {call : CookieCall} (hroute : (requests i).route = .behindCsrf call)
      (horigin : FromOrigin config .post (requests i).head)
  | jwt {call : ProtectedCall} {token : String} {claims : Claims} {first second : AccountHistory} {j : Nat}
      {user : User} (hroute : (requests i).route = .behindJwt call)
      (horigin : FromOrigin config call.method (requests i).head)
      (htoken : (requests i).head.accessToken = some token)
      (hhandler : (requests i).pass config = .ok (call.request claims))
      (hissued : before = first ++ (j, ⟨.issueAccessToken claims, .ok token⟩) :: second)
      (hauthenticated : Authenticated state (fun n => (requests n).admitted config) s first j claims.userId)
      (hread : HasRead state s first j user) (hclaims : claims = user.claims)

section Accountable

variable {state : AuthState} {config : GateConfig} {requests : Nat → HttpRequest} {s : AccountWorld}
  {tr : AccountHistory} {method : Method} {head : RequestHead}

theorem fromOrigin_of_allowed (h : originAllowed config.allowedCookieOrigin method head = true) :
    FromOrigin config method head := by
  rw [originAllowed, Bool.or_eq_true, Bool.or_eq_true, String.isEmpty_iff, Bool.not_eq_true', decide_eq_true_eq] at h
  rcases h with (hoff | hmethod) | horigin
  · exact .inl hoff
  · exact .inr (.inl hmethod)
  · obtain ⟨origin, horigin, htext⟩ := Option.bind_eq_some_iff.1 horigin
    unfold headerText at htext
    split_ifs at htext
    rw [Option.some.inj htext] at horigin
    exact .inr (.inr horigin)

/-- Whoever passes `jwt_auth` presents a token that is accepted. -/
theorem jwtAuth_eq_ok {now : Timestamp} {claims : Claims} (h : jwtAuth config now method head = .ok claims) :
    FromOrigin config method head
      ∧ ∃ token, head.accessToken = some token ∧ config.verify now token = some claims := by
  unfold jwtAuth at h
  split_ifs at h with horigin
  rw [Bool.not_eq_true, Bool.not_eq_false'] at horigin
  split at h
  · cases h
  case h_2 token htoken =>
    split at h
    · cases h
    case h_2 verified hverify =>
      cases h
      exact ⟨fromOrigin_of_allowed horigin, token, htoken, hverify⟩

theorem cookieCsrf_eq_ok (h : cookieCsrf config method head = .ok ()) : FromOrigin config method head := by
  unfold cookieCsrf at h
  split_ifs at h with horigin
  rw [Bool.not_eq_true, Bool.not_eq_false'] at horigin
  exact fromOrigin_of_allowed horigin

/-- However requests interleave, whoever acts behind the middleware does so with the claims of a user who was
    authenticated, and comes from the origin that is allowed. -/
theorem acts_accountable (state : AuthState) (config : GateConfig) (requests : Nat → HttpRequest) (s : AccountWorld)
    (tr : AccountHistory) (hnone : s.refreshTokens.rows = []) (hunforged : Unforged config requests tr)
    (h : HttpInterleaved state config requests s tr) (before : AccountHistory) (i : Nat) (step : Step AccountStore)
    (after : AccountHistory) (htr : tr = before ++ (i, step) :: after) :
    LetThrough state config requests s before i := by
  cases hpass : (requests i).pass config with
  | error e =>
      have hsilent := ownSteps_of_refused h hpass
      have hmem : step ∈ ownSteps i tr := mem_ownSteps.2 (by simp [htr])
      rw [hsilent] at hmem
      cases hmem
  | ok request =>
      cases hroute : (requests i).route with
      | unguarded call => exact .unguarded hroute
      | behindCsrf call =>
          rw [HttpRequest.pass, hroute] at hpass
          cases hcsrf : cookieCsrf config .post (requests i).head with
          | error e => simp [hcsrf, bind, Except.bind] at hpass
          | ok done => exact .csrf hroute (cookieCsrf_eq_ok hcsrf)
      | behindJwt call =>
          rw [HttpRequest.pass, hroute] at hpass
          cases hjwt : jwtAuth config (requests i).time call.method (requests i).head with
          | error e => simp [hjwt, bind, Except.bind] at hpass
          | ok claims =>
              obtain ⟨horigin, token, htoken, hverify⟩ := jwtAuth_eq_ok hjwt
              obtain ⟨j, claims', hissued⟩ := hunforged.issued before i step after token claims htr htoken hverify
              have hmem : (j, (⟨.issueAccessToken claims', .ok token⟩ : Step AccountStore)) ∈ tr := by
                rw [htr]
                exact List.mem_append_left _ hissued
              obtain rfl := hunforged.faithful j claims' token hmem _ claims hverify
              obtain ⟨first, second, rfl⟩ := List.append_of_mem hissued
              rw [htr, List.append_assoc, List.cons_append] at h
              have hvouched := sessions_vouched state _ s _ hnone (sessionsInterleaved_of_http h)
              obtain ⟨user, hread, hclaims⟩ := hvouched.claims first j claims (.ok token) _ rfl
              refine .jwt hroute horigin htoken ?_ rfl (hvouched.authenticated first j _ _ _ rfl rfl) hread hclaims
              rw [HttpRequest.pass, hroute]
              simp [hjwt, bind, Except.bind, pure, Except.pure]

end Accountable

/-! ## A login, and an act with its token -/

/-- One origin may send cookies, and one token is signed. -/
def sampleGate : GateConfig where
  allowedCookieOrigin := "https://admin"
  verify _ token := if token = "jwt" then some ⟨3, 10, "user"⟩ else none

/-- The user signs in and ends all sessions with the cookie; anyone else has no token. -/
def signedInRequests : Nat → HttpRequest
  | 0 => ⟨⟨none, none, none⟩, 1, .unguarded (.login ⟨none, none, "ann", "old"⟩)⟩
  | 1 => ⟨⟨some "https://admin", none, some "theme=dark; godwit_access=jwt"⟩, 5, .behindJwt .revokeAllSessions⟩
  | _ => ⟨⟨none, none, none⟩, 5, .behindJwt .me⟩

/-- A user signs in, and an administrator then ends the sessions of that user. -/
def signedInHistory : AccountHistory := sampleLogin.map (0, ·) ++ [(1, ⟨.deleteRefreshTokensOf 3, .ok 1⟩)]

theorem signedInHistory_interleaved :
    HttpInterleaved sampleAuthState sampleGate signedInRequests sampleAccounts signedInHistory := by
  refine ⟨⟨⟨List.mem_cons_of_mem _ List.mem_cons_self, rfl⟩, trivial, ⟨rfl, by decide⟩, trivial,
    ⟨rfl, by decide, rfl⟩, trivial, trivial⟩, fun i => ?_⟩
  rcases i with _ | _ | i
  · exact ⟨[], _, .op trivial (.op trivial (.op trivial (.op trivial (.op trivial (.pure _)))))⟩
  · exact ⟨[], _, .op trivial (.pure _)⟩
  · exact ⟨[], _, .throw _⟩

theorem signedInHistory_unforged : Unforged sampleGate signedInRequests signedInHistory where
  issued := by
    intro before i step after token claims htr htoken hverify
    have hone : i = 1 ∧ token = "jwt" := by
      rcases i with _ | _ | i
      · cases (show none = some token from htoken)
      · exact ⟨rfl, (Option.some.inj htoken).symm⟩
      · cases (show none = some token from htoken)
    obtain ⟨rfl, rfl⟩ := hone
    -- the second request has made the last step only
    have hbefore : before = sampleLogin.map (0, ·) := by
      rcases List.append_eq_append_iff.1 htr with ⟨more, rfl, hmore⟩ | ⟨more, hlogin, hmore⟩
      · cases more with
        | nil => exact List.append_nil _
        | cons entry more => simp at hmore
      · cases more with
        | nil => simpa using hlogin.symm
        | cons entry more =>
            obtain ⟨rfl, -⟩ := List.cons.inj hmore
            have hmem : (1, step) ∈ sampleLogin.map (0, ·) := by simp [hlogin]
            obtain ⟨_, -, heq⟩ := List.mem_map.1 hmem
            cases heq
    rw [hbefore]
    exact ⟨0, ⟨3, 10, "user"⟩, List.mem_map.2 ⟨_, List.mem_cons_of_mem _ List.mem_cons_self, rfl⟩⟩
  faithful := by
    intro j claims' token hmem now claims hverify
    simp only [signedInHistory, sampleLogin, issueSteps, List.map_cons, List.map_nil, List.cons_append,
      List.nil_append, List.mem_cons, Prod.mk.injEq, List.not_mem_nil, or_false] at hmem
    rcases hmem with ⟨-, heq⟩ | ⟨-, heq⟩ | ⟨-, heq⟩ | ⟨-, heq⟩ | ⟨-, heq⟩ | ⟨-, heq⟩
    all_goals cases heq
    have hclaims : some ⟨3, 10, "user"⟩ = some claims := hverify
    exact (Option.some.inj hclaims).symm

theorem acts_accountable_signedIn :
    LetThrough sampleAuthState sampleGate signedInRequests sampleAccounts (sampleLogin.map (0, ·)) 1 :=
  acts_accountable _ _ _ _ _ rfl signedInHistory_unforged signedInHistory_interleaved _ 1 _ [] rfl

/-! ## Cookies -/

/-- A text that stands in a header as it is: visible, without a separator, and without blanks at its ends. -/
structure CookieText (text : String) : Prop where
  visible : ∀ c ∈ text.toList, 32 ≤ c.toNat ∧ c.toNat < 127
  unseparated : ';' ∉ text.toList
  trimmed : Trimmed text.toList

theorem cookieText_iff {text : String} : CookieText text ↔
    (text.toList.all fun c => 32 ≤ c.toNat ∧ c.toNat < 127) = true ∧ ';' ∉ text.toList
      ∧ text.toList.head?.all (!isWhitespace ·) = true ∧ text.toList.getLast?.all (!isWhitespace ·) = true := by
  simp only [List.all_eq_true, decide_eq_true_eq, Option.all_eq_true, Bool.not_eq_true']
  exact ⟨fun ⟨hvisible, hunseparated, hfirst, hlast⟩ => ⟨hvisible, hunseparated, hfirst, hlast⟩,
    fun ⟨hvisible, hunseparated, hfirst, hlast⟩ => ⟨hvisible, hunseparated, hfirst, hlast⟩⟩

instance (text : String) : Decidable (CookieText text) := decidable_of_iff' _ cookieText_iff

/-- A cookie with its name. -/
structure IsCookie (cookie : String × String) : Prop where
  name : CookieText cookie.1
  value : CookieText cookie.2
  plain : '=' ∉ cookie.1.toList

instance (cookie : String × String) : Decidable (IsCookie cookie) :=
  decidable_of_iff (CookieText cookie.1 ∧ CookieText cookie.2 ∧ '=' ∉ cookie.1.toList)
    ⟨fun ⟨hname, hvalue, hplain⟩ => ⟨hname, hvalue, hplain⟩, fun ⟨hname, hvalue, hplain⟩ => ⟨hname, hvalue, hplain⟩⟩

/-- A pair of the `Cookie` header. -/
def cookiePair (cookie : String × String) : String := cookie.1 ++ "=" ++ cookie.2

/-- The header that a browser sends its cookies with. -/
def cookieHeader (jar : List (String × String)) : String := "; ".intercalate (jar.map cookiePair)

/-- What a browser keeps of a `Set-Cookie` header: the name and the value in front of the attributes. -/
def storedCookie (setCookie : String) : String × String :=
  let (name, value) := ((setCookie.toList.splitOn ';').headD []).span (· ≠ '=')
  (String.ofList (trimChars name), String.ofList (trimChars (value.drop 1)))

section Cookies

variable {cookie : String × String} {name : String}

theorem toList_cookiePair (cookie : String × String) :
    (cookiePair cookie).toList = cookie.1.toList ++ '=' :: cookie.2.toList := by
  simp [cookiePair, String.toList_append]

theorem IsCookie.trimmed_pair (h : IsCookie cookie) : Trimmed (cookie.1.toList ++ '=' :: cookie.2.toList) := by
  obtain ⟨hfirst, -⟩ := h.name.trimmed
  obtain ⟨-, hlast⟩ := h.value.trimmed
  refine ⟨?_, ?_⟩
  · cases hname : cookie.1.toList with
    | nil => simp [isWhitespace]
    | cons c rest =>
        rw [hname] at hfirst
        exact hfirst
  · cases hvalue : cookie.2.toList with
    | nil => simp [isWhitespace]
    | cons c rest =>
        rw [hvalue] at hlast
        simpa using hlast

theorem span_pair (h : '=' ∉ cookie.1.toList) :
    (cookie.1.toList ++ '=' :: cookie.2.toList).span (· ≠ '=') = (cookie.1.toList, '=' :: cookie.2.toList) := by
  have hname : ∀ c ∈ cookie.1.toList, decide (c ≠ '=') = true := by
    intro c hc
    exact decide_eq_true fun heq => h (heq ▸ hc)
  rw [List.span_eq_takeWhile_dropWhile, List.takeWhile_append_of_pos hname, List.dropWhile_append_of_pos hname]
  simp

/-- A pair is read as the cookie it was made of. -/
theorem cookiePart_pair (h : IsCookie cookie) :
    cookiePart name (cookiePair cookie).toList = if cookie.1 = name then some cookie.2 else none := by
  rw [cookiePart, toList_cookiePair, trimChars_of_trimmed h.trimmed_pair, span_pair h.plain]
  simp only [trimChars_of_trimmed h.name.trimmed, trimChars_of_trimmed h.value.trimmed, String.ofList_toList,
    String.toList_inj]

theorem cookiePart_blank (part : List Char) : cookiePart name (' ' :: part) = cookiePart name part := by
  have htrim : trimChars (' ' :: part) = trimChars part := by
    rw [trimChars, trimChars, List.dropWhile_cons_of_pos (by decide)]
  rw [cookiePart, htrim, cookiePart]

/-- A blank in front of a header is not read. -/
theorem findSome?_blank (text : List Char) :
    ((' ' :: text).splitOn ';').findSome? (cookiePart name) = (text.splitOn ';').findSome? (cookiePart name) := by
  rw [List.splitOn_cons_eq_if_modifyHead, if_neg (by decide)]
  cases text.splitOn ';' with
  | nil => rfl
  | cons part parts => rw [List.modifyHead_cons, List.findSome?_cons, List.findSome?_cons, cookiePart_blank]

theorem IsCookie.unseparated (h : IsCookie cookie) : ';' ∉ (cookiePair cookie).toList := by
  rw [toList_cookiePair, List.mem_append, List.mem_cons]
  rintro (hname | heq | hvalue)
  · exact h.name.unseparated hname
  · exact absurd heq (by decide)
  · exact h.value.unseparated hvalue

theorem toList_cookieHeader_cons (first second : String × String) (rest : List (String × String)) :
    (cookieHeader (first :: second :: rest)).toList
      = (cookiePair first).toList ++ ';' :: ' ' :: (cookieHeader (second :: rest)).toList := by
  simp [cookieHeader, String.intercalate_cons_cons, String.toList_append]

/-- A header shows the first cookie of a name. -/
theorem findSome?_cookieHeader {jar : List (String × String)} (hjar : ∀ cookie ∈ jar, IsCookie cookie) :
    ((cookieHeader jar).toList.splitOn ';').findSome? (cookiePart name)
      = (jar.find? fun cookie => cookie.1 = name).map Prod.snd := by
  induction jar with
  | nil => rfl
  | cons first rest ih =>
      obtain ⟨hfirst, hrest⟩ := List.forall_mem_cons.1 hjar
      have hhead : cookiePart name (cookiePair first).toList = if first.1 = name then some first.2 else none :=
        cookiePart_pair hfirst
      cases rest with
      | nil =>
          have halone : cookieHeader [first] = cookiePair first := String.intercalate_singleton
          rw [halone, List.splitOn_eq_singleton hfirst.unseparated, List.findSome?_cons, hhead]
          by_cases hname : first.1 = name <;> simp [hname]
      | cons second rest =>
          rw [toList_cookieHeader_cons, List.splitOn_append_cons_self_of_not_mem hfirst.unseparated,
            List.findSome?_cons, findSome?_blank, ih hrest, hhead]
          by_cases hname : first.1 = name <;> simp [hname]

theorem visible_cookieHeader {jar : List (String × String)} (hjar : ∀ cookie ∈ jar, IsCookie cookie) :
    ∀ c ∈ (cookieHeader jar).toList, 32 ≤ c.toNat ∧ c.toNat < 127 := by
  have hpair : ∀ {cookie : String × String}, IsCookie cookie →
      ∀ c ∈ (cookiePair cookie).toList, 32 ≤ c.toNat ∧ c.toNat < 127 := by
    intro cookie hcookie c hc
    rw [toList_cookiePair, List.mem_append, List.mem_cons] at hc
    rcases hc with hname | rfl | hvalue
    · exact hcookie.name.visible c hname
    · decide
    · exact hcookie.value.visible c hvalue
  induction jar with
  | nil =>
      intro c hc
      cases hc
  | cons first rest ih =>
      obtain ⟨hfirst, hrest⟩ := List.forall_mem_cons.1 hjar
      intro c hc
      cases rest with
      | nil =>
          have halone : cookieHeader [first] = cookiePair first := String.intercalate_singleton
          rw [halone] at hc
          exact hpair hfirst c hc
      | cons second rest =>
          rw [toList_cookieHeader_cons, List.mem_append, List.mem_cons, List.mem_cons] at hc
          rcases hc with hc | rfl | rfl | hc
          · exact hpair hfirst c hc
          · decide
          · decide
          · exact ih hrest c hc

/-- The server reads of a header what the browser has put into it. -/
theorem cookieValue_cookieHeader {jar : List (String × String)} (hjar : ∀ cookie ∈ jar, IsCookie cookie) :
    cookieValue (some (cookieHeader jar)) name = (jar.find? fun cookie => cookie.1 = name).map Prod.snd := by
  have htext : headerText (cookieHeader jar) = some (cookieHeader jar) := by
    refine if_pos (List.all_eq_true.2 fun c hc => decide_eq_true (.inr ?_))
    exact visible_cookieHeader hjar c hc
  rw [cookieValue, Option.bind_some, htext, Option.bind_some, findSome?_cookieHeader hjar]

/-- A browser keeps the cookie in front of the attributes. -/
theorem storedCookie_pair (h : IsCookie cookie) (attributes : String) :
    storedCookie (cookiePair cookie ++ ";" ++ attributes) = cookie := by
  have htext : (cookiePair cookie ++ ";" ++ attributes).toList
      = (cookiePair cookie).toList ++ ';' :: attributes.toList := by
    simp [String.toList_append]
  rw [storedCookie, htext, List.splitOn_append_cons_self_of_not_mem h.unseparated, List.headD_cons,
    toList_cookiePair, span_pair h.plain]
  simp only [List.drop_succ_cons, List.drop_zero, trimChars_of_trimmed h.name.trimmed,
    trimChars_of_trimmed h.value.trimmed, String.ofList_toList]

end Cookies

/-! ## A pair and its cookies -/

section Pair

variable {state : AuthState} {env : Environment AccountStore} {tr : List (Step AccountStore)} {pair : TokenPair}

theorem headerValue_eq_ok {value shown : String} (h : headerValue value = .ok shown) : shown = value := by
  unfold headerValue at h
  split_ifs at h
  exact (Except.ok.inj h).symm

/-- The cookies carry the tokens of the pair. -/
def CarriedBy (state : AuthState) (pair : TokenPair) : Prop :=
  pair.cookies = [accessCookie state pair.accessToken, refreshCookie state pair.refreshToken]

theorem issueTokenPair_carried {user : User} (h : (issueTokenPair state user).Runs env tr (.ok pair)) :
    CarriedBy state pair := by
  obtain ⟨issued, _, -, -, h⟩ := Program.runs_perform_bind_iff.1 h
  obtain ⟨accessToken, -, h⟩ := h.ofExcept_bind_ok
  obtain ⟨generated, _, -, -, h⟩ := Program.runs_perform_bind_iff.1 h
  obtain ⟨now, _, -, -, h⟩ := Program.runs_perform_bind_iff.1 h
  obtain ⟨created, _, -, -, h⟩ := Program.runs_perform_bind_iff.1 h
  obtain ⟨_, -, h⟩ := h.ofExcept_bind_ok
  obtain ⟨access, haccess, h⟩ := h.ofExcept_bind_ok
  obtain ⟨refresh, hrefresh, h⟩ := h.ofExcept_bind_ok
  obtain ⟨-, hpair⟩ := Program.runs_pure_iff.1 h
  obtain rfl := Except.ok.inj hpair
  rw [CarriedBy, headerValue_eq_ok haccess, headerValue_eq_ok hrefresh]

theorem refuseLogin_refuses {ip : String} : ¬ (refuseLogin ip).Runs env tr (.ok pair) := by
  intro h
  obtain ⟨reply, _, -, -, h⟩ := Program.runs_perform_bind_iff.1 h
  split at h
  · cases (Program.runs_throw_iff.1 h).2
  · cases (Program.runs_throw_iff.1 h).2

theorem login_carried {req : LoginRequest} (h : (login state req).Runs env tr (.ok pair)) :
    CarriedBy state pair := by
  obtain ⟨fetched, _, -, -, h⟩ := Program.runs_perform_bind_iff.1 h
  cases fetched with
  | error e => exact absurd h refuseLogin_refuses
  | ok user =>
      dsimp only at h
      split at h
      · cases (Program.runs_throw_iff.1 h).2
      · split at h
        · obtain ⟨issued, _, _, -, hissued, h⟩ := h.bind_ok
          obtain ⟨must, _, _, -, -, h⟩ := h.bind_ok
          obtain ⟨-, hpair⟩ := Program.runs_pure_iff.1 h
          obtain rfl := Except.ok.inj hpair
          have hcarried : CarriedBy state issued := issueTokenPair_carried hissued
          exact hcarried
        · exact absurd h refuseLogin_refuses

theorem refresh_carried {presented : PresentedToken} (h : (refresh state presented).Runs env tr (.ok pair)) :
    CarriedBy state pair := by
  unfold refresh at h
  split at h
  · cases (Program.runs_throw_iff.1 h).2
  · obtain ⟨fetched, _, -, -, h⟩ := Program.runs_perform_bind_iff.1 h
    cases fetched with
    | error e => cases (Program.runs_throw_iff.1 h).2
    | ok stored =>
        obtain ⟨now, _, -, -, h⟩ := Program.runs_perform_bind_iff.1 h
        split at h
        · obtain ⟨_, _, -, -, h⟩ := Program.runs_perform_bind_iff.1 h
          cases (Program.runs_throw_iff.1 h).2
        · obtain ⟨owner, _, -, -, h⟩ := Program.runs_perform_bind_iff.1 h
          cases owner with
          | error e => cases (Program.runs_throw_iff.1 h).2
          | ok user =>
              obtain ⟨deleted, _, -, -, h⟩ := Program.runs_perform_bind_iff.1 h
              cases deleted with
              | error e => cases (Program.runs_throw_iff.1 h).2
              | ok done => exact issueTokenPair_carried h

theorem oidcCallback_carried {providers : List OidcClient} {providerId : String} {params : OidcCallback}
    (h : (oidcCallback state providers providerId params).Runs env tr (.ok pair)) : CarriedBy state pair := by
  obtain ⟨client, -, h⟩ := h.ofExcept_bind_ok
  obtain ⟨_, -, h⟩ := h.ofExcept_bind_ok
  obtain ⟨identity, -, h⟩ := h.ofExcept_bind_ok
  obtain ⟨fetched, _, -, -, h⟩ := Program.runs_perform_bind_iff.1 h
  cases fetched with
  | ok user => exact issueTokenPair_carried h
  | error e =>
      obtain ⟨created, _, -, -, h⟩ := Program.runs_perform_bind_iff.1 h
      cases created with
      | error e => cases (Program.runs_throw_iff.1 h).2
      | ok user => exact issueTokenPair_carried h

/-- Every request that answers with tokens sets cookies with them. -/
theorem SessionRequest.carried {r : SessionRequest}
    (h : (r.serve state).Runs env tr (.ok (.account (.tokens pair)))) : CarriedBy state pair := by
  cases r with
  | account req =>
      obtain ⟨response, h, heq⟩ := Program.Runs.bind_pure_ok h
      obtain rfl := SessionResponse.account.inj heq
      cases req with
      | login req =>
          obtain ⟨issued, h, heq⟩ := Program.Runs.bind_pure_ok h
          exact AccountResponse.tokens.inj heq ▸ login_carried h
      | refresh presented =>
          obtain ⟨issued, h, heq⟩ := Program.Runs.bind_pure_ok h
          exact AccountResponse.tokens.inj heq ▸ refresh_carried h
      | _ =>
          obtain ⟨_, _, _, -, -, h⟩ := h.bind_ok
          cases (Program.runs_pure_iff.1 h).2
  | me claims =>
      obtain ⟨_, -, heq⟩ := Program.Runs.bind_pure_ok h
      cases heq
  | revokeAllSessions claims =>
      obtain ⟨_, -, heq⟩ := Program.Runs.bind_pure_ok h
      cases heq
  | oidcCallback providers providerId params =>
      obtain ⟨issued, h, heq⟩ := Program.Runs.bind_pure_ok h
      exact AccountResponse.tokens.inj (SessionResponse.account.inj heq) ▸ oidcCallback_carried h

theorem cookieValue_of_kept {jar : List (String × String)} (hjar : ∀ cookie ∈ jar, IsCookie cookie)
    {cookie : String × String} (hmem : cookie ∈ jar) (honly : ∀ other ∈ jar, other.1 = cookie.1 → other = cookie) :
    cookieValue (some (cookieHeader jar)) cookie.1 = some cookie.2 := by
  rw [cookieValue_cookieHeader hjar]
  cases hfind : jar.find? fun other => other.1 = cookie.1 with
  | none => exact absurd (decide_eq_true rfl) (List.find?_eq_none.1 hfind cookie hmem)
  | some other =>
      have hname : other.1 = cookie.1 := by simpa using List.find?_some hfind
      rw [honly other (List.mem_of_find?_eq_some hfind) hname, Option.map_some]

theorem storedCookie_attributes {name token opening attributes attributes' : String}
    (hcookie : IsCookie (name, token)) (hopening : opening = name ++ "=")
    (hattributes : attributes = ";" ++ attributes') (maxAge secure : String) :
    storedCookie (opening ++ token ++ attributes ++ maxAge ++ secure) = (name, token) := by
  have htext : opening ++ token ++ attributes ++ maxAge ++ secure
      = cookiePair (name, token) ++ ";" ++ (attributes' ++ maxAge ++ secure) := by
    rw [hopening, hattributes, cookiePair]
    simp only [String.append_assoc]
  rw [htext, storedCookie_pair hcookie]

theorem storedCookie_accessCookie {token : String} (htoken : CookieText token) :
    storedCookie (accessCookie state token) = ("godwit_access", token) := by
  have hname : CookieText "godwit_access" := by decide
  have hplain : '=' ∉ "godwit_access".toList := by decide
  have hattributes : "; HttpOnly; Path=/; SameSite=Strict; Max-Age="
      = ";" ++ " HttpOnly; Path=/; SameSite=Strict; Max-Age=" := by decide
  exact storedCookie_attributes ⟨hname, htoken, hplain⟩ (by decide) hattributes _ _

theorem storedCookie_refreshCookie {token : String} (htoken : CookieText token) :
    storedCookie (refreshCookie state token) = ("godwit_refresh", token) := by
  have hname : CookieText "godwit_refresh" := by decide
  have hplain : '=' ∉ "godwit_refresh".toList := by decide
  have hattributes : "; HttpOnly; Path=/api/v1/auth; SameSite=Strict; Max-Age="
      = ";" ++ " HttpOnly; Path=/api/v1/auth; SameSite=Strict; Max-Age=" := by decide
  exact storedCookie_attributes ⟨hname, htoken, hplain⟩ (by decide) hattributes _ _

/-- A jar with the cookies of the pair, and no others of their names. -/
structure HoldsPair (jar : List (String × String)) (pair : TokenPair) : Prop where
  wellFormed : ∀ cookie ∈ jar, IsCookie cookie
  holds : ∀ setCookie ∈ pair.cookies, storedCookie setCookie ∈ jar
  only : ∀ setCookie ∈ pair.cookies, ∀ cookie ∈ jar, cookie.1 = (storedCookie setCookie).1 →
    cookie = storedCookie setCookie

/-- A browser that has kept the cookies of a response presents the tokens of the response. -/
theorem session_presented (state : AuthState) (env : Environment AccountStore) (r : SessionRequest)
    (tr : List (Step AccountStore)) (pair : TokenPair)
    (hrun : (r.serve state).Runs env tr (.ok (.account (.tokens pair)))) (haccess : CookieText pair.accessToken)
    (hrefresh : CookieText pair.refreshToken) (jar : List (String × String)) (hjar : HoldsPair jar pair)
    (head : RequestHead) (hcookie : head.cookie = some (cookieHeader jar))
    (hbearer : bearerToken head.authorization = none) (body : Option String) :
    head.accessToken = some pair.accessToken
      ∧ PresentedToken.token ⟨refreshTokenFromCookie head, body⟩ = some pair.refreshToken := by
  have hcarried : pair.cookies = _ := SessionRequest.carried hrun
  have hshown : ∀ setCookie ∈ pair.cookies,
      cookieValue head.cookie (storedCookie setCookie).1 = some (storedCookie setCookie).2 := by
    intro setCookie hmem
    rw [hcookie]
    exact cookieValue_of_kept hjar.wellFormed (hjar.holds setCookie hmem) (hjar.only setCookie hmem)
  have haccess' := hshown (accessCookie state pair.accessToken) (by simp [hcarried])
  have hrefresh' := hshown (refreshCookie state pair.refreshToken) (by simp [hcarried])
  rw [storedCookie_accessCookie haccess] at haccess'
  rw [storedCookie_refreshCookie hrefresh] at hrefresh'
  refine ⟨?_, ?_⟩
  · rw [RequestHead.accessToken, hbearer, Option.none_or, haccess']
  · rw [PresentedToken.token, refreshTokenFromCookie, hrefresh']
    rfl

end Pair

/-! ## The cookies of a login -/

/-- The two cookies of a session among another one. -/
def sampleJar : List (String × String) := [("theme", "dark"), ("godwit_access", "jwt"), ("godwit_refresh", "first")]

theorem sampleJar_cookies : ∀ cookie ∈ sampleJar, IsCookie cookie := by
  decide

theorem session_presented_login :
    ∃ pair, ((wholeSession 0).serve sampleAuthState).Runs anyAnswer sampleLogin (.ok (.account (.tokens pair)))
      ∧ RequestHead.accessToken ⟨none, none, some (cookieHeader sampleJar)⟩ = some pair.accessToken
      ∧ PresentedToken.token ⟨refreshTokenFromCookie ⟨none, none, some (cookieHeader sampleJar)⟩, none⟩
        = some pair.refreshToken := by
  obtain ⟨pair, hrun, haccess, hrefresh⟩ : ∃ pair, ((wholeSession 0).serve sampleAuthState).Runs anyAnswer sampleLogin
      (.ok (.account (.tokens pair))) ∧ pair.accessToken = "jwt" ∧ pair.refreshToken = "first" :=
    ⟨_, .op trivial (.op trivial (.op trivial (.op trivial (.op trivial (.pure _))))), rfl, rfl⟩
  have hjwt : CookieText pair.accessToken := haccess ▸ (sampleJar_cookies ("godwit_access", "jwt") (by decide)).value
  have hfirst : CookieText pair.refreshToken :=
    hrefresh ▸ (sampleJar_cookies ("godwit_refresh", "first") (by decide)).value
  have hcookies : pair.cookies.map storedCookie = [("godwit_access", "jwt"), ("godwit_refresh", "first")] := by
    have hcarried : pair.cookies = _ := SessionRequest.carried hrun
    rw [hcarried, List.map_cons, List.map_cons, List.map_nil, storedCookie_accessCookie hjwt,
      storedCookie_refreshCookie hfirst, haccess, hrefresh]
  have hjar : HoldsPair sampleJar pair := by
    have hstored : ∀ setCookie ∈ pair.cookies,
        storedCookie setCookie ∈ [("godwit_access", "jwt"), ("godwit_refresh", "first")] :=
      fun setCookie hmem => hcookies ▸ List.mem_map_of_mem hmem
    have hheld : ∀ cookie ∈ [("godwit_access", "jwt"), ("godwit_refresh", "first")], cookie ∈ sampleJar
        ∧ ∀ other ∈ sampleJar, other.1 = cookie.1 → other = cookie := by
      decide
    exact ⟨sampleJar_cookies, fun setCookie hmem => (hheld _ (hstored setCookie hmem)).1,
      fun setCookie hmem => (hheld _ (hstored setCookie hmem)).2⟩
  exact ⟨pair, hrun, session_presented _ _ _ _ pair hrun hjwt hfirst sampleJar hjar _ rfl rfl none⟩

end Godwit
