import Godwit.Api.Proofs.Attribution
import Godwit.Api.Proofs.Operations
import Godwit.Lib.Stride

set_option autoImplicit false

/-! # Round robin over chat requests

A chat request without tools resolves its model twice, for the admission and for the attempt, and both
resolutions advance the counter of the balancer. The rows that serve consecutive requests are every
second one of the cycle, so they cover it exactly when its length is odd. -/

namespace Godwit

/-! ## Replicas -/

/-- The bare id has these rows, which are all enabled and fit for chat, in round robin. -/
structure Replicas (r : DbModelRouter) (publicId : String) (rows : List Model) : Prop where
  bare : splitOnce publicId = none
  candidates : r.candidates publicId = rows
  nonempty : rows ≠ []
  capable : ∀ row ∈ rows, row.hasCapability .chat = true
  enabled : ∀ row ∈ rows, ∃ profile credentials, r.withProfile row = .ok (row, profile)
    ∧ r.resolveCredentials profile = .ok credentials ∧ profile.protocol ∈ r.registry
  roundRobin : strategyFor rows = .roundRobin

/-- The counter that round robin over these rows uses. -/
def rrCounter (lb : LoadBalancer) (rows : List Model) : BitVec 64 :=
  rows.head?.elim 0 fun row => (lb row.id).rrIndex

/-- Only in-flight counts and latencies differ. -/
def LoadBalancer.SameCounters (lb lb' : LoadBalancer) : Prop := ∀ id, (lb' id).rrIndex = (lb id).rrIndex

theorem LoadBalancer.SameCounters.rrCounter_eq {lb lb' : LoadBalancer} (h : lb.SameCounters lb')
    (rows : List Model) : rrCounter lb' rows = rrCounter lb rows := by
  unfold rrCounter
  cases rows with
  | nil => rfl
  | cons row rest => exact h row.id

theorem LoadBalancer.sameCounters_incrementInFlight (lb : LoadBalancer) (id : Uuid) :
    lb.SameCounters (lb.incrementInFlight id) := by
  intro other
  unfold LoadBalancer.incrementInFlight
  by_cases h : other = id
  · rw [h, Function.update_self]
  · rw [Function.update_of_ne h]

/-- The counter of an id advanced by one. -/
def LoadBalancer.advance (lb : LoadBalancer) (id : Uuid) : LoadBalancer :=
  Function.update lb id { lb id with rrIndex := (lb id).rrIndex + 1 }

section Replicas

variable {r : DbModelRouter} {publicId : String} {rows : List Model}

theorem Replicas.nodup (h : Replicas r publicId rows) : rows.Nodup := by
  have hids := r.candidates_nodup publicId
  rw [h.candidates] at hids
  exact hids.of_map

theorem Replicas.length_lt (h : Replicas r publicId rows) : rows.length < 2 ^ 63 := by
  rw [← h.candidates]
  exact (List.length_filter_le _ _).trans_lt r.catalog.models_bounded

/-- One resolution takes the row under the counter and advances the counter. -/
theorem Replicas.resolve (h : Replicas r publicId rows) (hmany : 2 ≤ rows.length) (lb : LoadBalancer) :
    ∃ resolved, (r.resolve lb publicId .chat).1 = .ok resolved
      ∧ rows[(rrCounter lb rows).toNat % rows.length]? = some resolved.model
      ∧ rrCounter (r.resolve lb publicId .chat).2 rows = rrCounter lb rows + 1 := by
  obtain ⟨first, second, rest, rfl⟩ : ∃ first second rest, rows = first :: second :: rest := by
    match rows, hmany with
    | first :: second :: rest, _ => exact ⟨first, second, rest, rfl⟩
  have hlt : (rrCounter lb (first :: second :: rest)).toNat % (first :: second :: rest).length
      < (first :: second :: rest).length := Nat.mod_lt _ (by simp)
  obtain ⟨row, hrow⟩ : ∃ row, (first :: second :: rest)[(rrCounter lb (first :: second :: rest)).toNat
      % (first :: second :: rest).length]? = some row := ⟨_, List.getElem?_eq_getElem hlt⟩
  have hmem := List.mem_of_getElem? hrow
  obtain ⟨profile, credentials, hprofile, hcredentials, hprotocol⟩ := h.enabled row hmem
  have hselect : selectLoadBalanced lb (first :: second :: rest)
      (strategyFor (first :: second :: rest)) = (some row, lb.advance first.id) := by
    rw [h.roundRobin]
    simp only [selectLoadBalanced, List.map_cons, LoadBalancer.selectProvider, Option.getD_some,
      List.length_cons, List.length_map]
    exact Prod.ext hrow rfl
  have hchoose : r.chooseRow lb publicId .chat = (.ok (row, profile), lb.advance first.id) := by
    simp only [DbModelRouter.chooseRow, h.bare, DbModelRouter.bareRow, h.candidates, hselect, hprofile]
  have hadvanced : ∀ lb', (lb.advance first.id).SameCounters lb' →
      rrCounter lb' (first :: second :: rest) = rrCounter lb (first :: second :: rest) + 1 := by
    intro lb' hsame
    rw [hsame.rrCounter_eq]
    simp [rrCounter, LoadBalancer.advance]
  simp only [DbModelRouter.resolve, hchoose, h.capable row hmem, Bool.not_true, Bool.false_eq_true,
    if_false, hcredentials, hprotocol, if_true]
  refine ⟨_, rfl, hrow, hadvanced _ ?_⟩
  by_cases hnil : row.id = Uuid.nil
  · simp only [hnil, if_true, Option.elim_none]
    exact fun _ => rfl
  · simp only [hnil, if_false, Option.elim_some]
    exact LoadBalancer.sameCounters_incrementInFlight _ _

end Replicas

/-! ## Runs of requests -/

/-- The row of the last adapter call that answered. -/
def servedStep (row : Option Model) : Step Gateway → Option Model
  | ⟨.adapter resolved _, .ok _⟩ => some resolved.model
  | _ => row

/-- The row that answered the request. -/
def servedRow (tr : Trace) : Option Model := tr.foldl servedStep none

/-- The balancer and the row that answered last. -/
structure Balance where
  lb : LoadBalancer
  served : Option Model

/-- The balancer along a run in which the provider calls succeed: the completions also pass the check
    of the response format, which fails a call like the provider does. Guards are released and
    latencies recorded at any time, so of the balancer only the counters are followed. -/
abbrev balanceMonitor (state : AppState) : Monitor Gateway where
  State := Balance
  next s step :=
    { lb := match step with
        | ⟨.resolve modelRef capability, _⟩ => (state.modelRouter.resolve s.lb modelRef capability).2
        | _ => s.lb
      served := servedStep s.served step }
  accepts s step := match step with
    | ⟨.resolve modelRef capability, answer⟩ =>
      ∃ lb, s.lb.SameCounters lb ∧ (state.modelRouter.resolve lb modelRef capability).1 = answer
    | ⟨.adapter _ (.chat req), answer⟩ =>
      ∃ completion usage, answer = .ok (.chat completion, usage)
        ∧ validateCompletion state req.responseFormat completion = .ok ()
    | _ => True

/-- One request with its run and response. -/
structure Exchange where
  apiKey : ApiKey
  tags : Option String
  body : Bytes
  trace : Trace
  response : Response

/-- Non-streamed chat requests without tools for one id, served one after the other from a state of
    the balancer on, with provider calls that succeed. -/
structure Session (state : AppState) (publicId : String) (lb : LoadBalancer)
    (exchanges : List Exchange) : Prop where
  requests : ∀ e ∈ exchanges, ∃ req, state.body.chatRequest e.body = some req ∧ req.model = publicId
    ∧ hasTools req = false ∧ streams req = false
  runs : ∀ e ∈ exchanges,
    (chatCompletions state e.apiKey e.tags e.body).Runs state.env e.trace (.ok e.response)
  balanced : (balanceMonitor state).Safe ⟨lb, none⟩ (exchanges.flatMap Exchange.trace)

/-- Every `n` requests in a row are served by different rows. -/
def Fair (n : Nat) (served : List (Option Model)) : Prop :=
  ∀ i, i + n ≤ served.length → ((served.drop i).take n).Nodup

section Request

variable {state : AppState} {publicId : String} {rows : List Model} {s : Balance}

/-- Operations that the monitor does not record. -/
theorem balance_quiet {step : Step Gateway}
    (h : step.op.kind ∈ [OpKind.admission, .guardrails, .metrics, .system, .log]) :
    (balanceMonitor state).next s step = s := by
  obtain ⟨op, answer⟩ := step
  cases op <;> simp [GatewayOp.kind] at h <;> rfl

/-- Parts of the endpoint that touch neither the balancer nor a provider. -/
theorem balance_pass {ε α : Type} {kinds : List OpKind} {p : App ε α} (hp : Performs kinds p)
    (hkinds : kinds ⊆ [OpKind.admission, .guardrails, .metrics, .system, .log]) :
    (balanceMonitor state).Guarantees state.env s p fun _ s' => s' = s :=
  .quiet hp fun _ hstep => balance_quiet (hkinds hstep)

/-- A resolution of the id. -/
theorem balance_resolve (h : Replicas state.modelRouter publicId rows) (hmany : 2 ≤ rows.length)
    {ε α : Type} {f : Except PasteurError ResolvedModel → App ε α} {Q : Except ε α → Balance → Prop}
    (hf : ∀ resolved s', rows[(rrCounter s.lb rows).toNat % rows.length]? = some resolved.model →
      rrCounter s'.lb rows = rrCounter s.lb rows + 1 →
      (balanceMonitor state).Guarantees state.env s' (f (.ok resolved)) Q) :
    (balanceMonitor state).Guarantees state.env s (ask (.resolve publicId .chat) >>= f) Q := by
  refine .perform fun answer _ haccepts => ?_
  obtain ⟨lb, hsame, hanswer⟩ := haccepts
  obtain ⟨resolved, hresolved, hrow, -⟩ := h.resolve hmany lb
  obtain ⟨-, -, -, hcounter⟩ := h.resolve hmany s.lb
  rw [hsame.rrCounter_eq] at hrow
  obtain rfl : answer = .ok resolved := hanswer.symm.trans hresolved
  exact hf resolved _ hrow hcounter

/-- A call that succeeds is not retried. -/
theorem balance_withRetry {ε α : Type} {policy : RetryPolicy} {sleep : Nat → App ε Unit}
    {f : App ε (Except ProviderError α)} {Q : α → Balance → Prop}
    (hf : (balanceMonitor state).Guarantees state.env s f fun out s' => ∃ a, out = .ok (.ok a) ∧ Q a s') :
    (balanceMonitor state).Guarantees state.env s (withRetry policy sleep f)
      fun out s' => ∃ a, out = .ok (.ok a) ∧ Q a s' := by
  unfold withRetry
  cases policy.maxRetries with
  | zero => exact hf
  | succ left =>
      refine .bind hf (fun out s' hout => ?_) fun e s' hout => ?_
      · obtain ⟨a, ha, hQ⟩ := hout
        cases ha
        exact .pure ⟨a, rfl, hQ⟩
      · obtain ⟨a, ha, -⟩ := hout
        cases ha

theorem balance_callChat {resolved : ResolvedModel} {req : ChatCompletionRequest}
    (hstream : streams req = false) :
    (balanceMonitor state).Guarantees state.env s (callChat state resolved req)
      fun out s' => (∃ a, out = .ok a) ∧ s' = { s with served := some resolved.model } := by
  have hnot : ¬ req.stream = some true := by simpa [streams] using hstream
  unfold callChat
  rw [if_neg hnot]
  have hcall : (balanceMonitor state).Guarantees state.env s (callAdapter resolved (.chat req))
      fun out s' => ∃ completion usage, out = .ok (.chat completion, usage)
        ∧ validateCompletion state req.responseFormat completion = .ok ()
        ∧ s' = { s with served := some resolved.model } := by
    refine .bind (balance_withRetry (Q := fun a s' => ∃ completion usage, a = (.chat completion, usage)
      ∧ validateCompletion state req.responseFormat completion = .ok ()
      ∧ s' = { s with served := some resolved.model }) (.perform fun answer _ haccepts => ?_))
      (fun out s' hout => ?_) fun e s' hout => ?_
    · obtain ⟨completion, usage, rfl, hvalid⟩ := haccepts
      exact .pure ⟨_, rfl, completion, usage, rfl, hvalid, rfl⟩
    · obtain ⟨a, ha, completion, usage, rfl, hvalid, hs'⟩ := hout
      cases ha
      exact .pure ⟨completion, usage, rfl, hvalid, hs'⟩
    · obtain ⟨a, ha, -⟩ := hout
      cases ha
  refine .bind hcall (fun a s' h => ?_) fun e s' h => ?_
  · obtain ⟨completion, usage, ha, hvalid, hs'⟩ := h
    cases ha
    dsimp only
    rw [hvalid]
    exact .pure ⟨⟨_, rfl⟩, hs'⟩
  · obtain ⟨_, _, ha, -⟩ := h
    cases ha

theorem balance_callChatAttempt (h : Replicas state.modelRouter publicId rows)
    (hmany : 2 ≤ rows.length) {req : ChatCompletionRequest} (hstream : streams req = false) :
    (balanceMonitor state).Guarantees state.env s (callChatAttempt state publicId req)
      fun out s' => (∃ a, out = .ok a) ∧ rrCounter s'.lb rows = rrCounter s.lb rows + 1
        ∧ s'.served = rows[(rrCounter s.lb rows).toNat % rows.length]? := by
  refine balance_resolve h hmany fun resolved s' hrow hcounter => ?_
  refine .bind (.pure (Q := fun out s'' => out = .ok resolved ∧ s'' = s') ⟨rfl, rfl⟩)
    (fun a s'' ha => ?_) fun e s'' he => by cases he.1
  obtain ⟨ha, rfl⟩ := ha
  cases ha
  refine .bind (balance_callChat hstream) (fun b s₁ hb => ?_) fun e s₁ he => ?_
  · obtain ⟨-, rfl⟩ := hb
    exact .pure ⟨⟨_, rfl⟩, hcounter, hrow.symm⟩
  · obtain ⟨⟨_, he⟩, -⟩ := he
    cases he

/-- The chain is served by its first reference. -/
theorem balance_serveFallback (h : Replicas state.modelRouter publicId rows) (hmany : 2 ≤ rows.length)
    {req : ChatCompletionRequest} (hmodel : req.model = publicId) (hstream : streams req = false)
    {model provider : String} :
    (balanceMonitor state).Guarantees state.env s (serveFallback state model provider req)
      fun _ s' => rrCounter s'.lb rows = rrCounter s.lb rows + 1
        ∧ s'.served = rows[(rrCounter s.lb rows).toNat % rows.length]? := by
  obtain ⟨rest, hchain⟩ := getFallbackChain_cons state req.model
  have hloop : (balanceMonitor state).Guarantees state.env s (callChatWithFallback state req.model req)
      fun out s' => (∃ result, out = .ok result) ∧ rrCounter s'.lb rows = rrCounter s.lb rows + 1
        ∧ s'.served = rows[(rrCounter s.lb rows).toNat % rows.length]? := by
    unfold callChatWithFallback
    rw [hchain, hmodel]
    refine .attempt (balance_callChatAttempt h hmany hstream) fun outcome s' hout => ?_
    obtain ⟨⟨a, rfl⟩, hcounter, hserved⟩ := hout
    exact .pure ⟨⟨_, rfl⟩, hcounter, hserved⟩
  refine .attempt hloop fun outcome s' hout => ?_
  obtain ⟨⟨result, rfl⟩, hcounter, hserved⟩ := hout
  exact .pure ⟨hcounter, hserved⟩

/-- A request takes two steps of the counter, and the row of the second serves it. -/
theorem balance_chatCompletions (h : Replicas state.modelRouter publicId rows)
    (hmany : 2 ≤ rows.length) {apiKey : ApiKey} {tags : Option String} {body : Bytes}
    {req : ChatCompletionRequest} (hreq : state.body.chatRequest body = some req)
    (hmodel : req.model = publicId) (htools : hasTools req = false) (hstream : streams req = false) :
    (balanceMonitor state).Guarantees state.env s (chatCompletions state apiKey tags body)
      fun out s' => ∀ response, out = .ok response → rrCounter s'.lb rows = rrCounter s.lb rows + 2
        ∧ s'.served = rows[(rrCounter s.lb rows + 1).toNat % rows.length]? := by
  refine .perform fun requestId _ _ => ?_
  rw [hreq]
  refine .bind (.pure (Q := fun out s' => out = .ok req ∧ s' = s) ⟨rfl, rfl⟩) (fun req' s' hpure => ?_)
    fun e s' he => by cases he.1
  obtain ⟨hreq', rfl⟩ := hpure
  cases hreq'
  subst hmodel
  refine balance_resolve h hmany fun primary s₁ _ hcounter => ?_
  refine .bind (.pure (Q := fun out s' => out = .ok primary ∧ s' = s₁) ⟨rfl, rfl⟩)
    (fun a s' hpure => ?_) fun e s' he => by cases he.1
  obtain ⟨ha, rfl⟩ := hpure
  cases ha
  refine .bind (balance_pass Performs.checkAdmission.mapError (by simp)) (fun _ s₂ hs => ?_)
    fun _ _ _ _ => nofun
  subst hs
  have hguard : (balanceMonitor state).Guarantees state.env s₂
      (guardRequest req.model primary.model.provider requestId req) fun out s' => s' = s₂
        ∧ ∀ guarded, out = .ok guarded → ∃ messages, guarded = { req with messages := messages } := by
    intro tr out hrun hsafe
    refine ⟨balance_pass Performs.guardRequest (by simp) tr out hrun hsafe, ?_⟩
    rintro guarded rfl
    exact ((@Spec.guardRequest state apiKey anyCall (.start apiKey) _ _ _ _) tr _ hrun).2.2
  refine .bind hguard (fun guarded s₃ hg => ?_) fun _ _ _ _ => nofun
  obtain ⟨rfl, hguarded⟩ := hg
  obtain ⟨messages, rfl⟩ := hguarded _ rfl
  refine .bind (balance_pass (Performs.recordMetrics (List.mem_singleton_self _)) (by simp))
    (fun _ s₄ hs => ?_) fun _ _ _ _ => nofun
  subst hs
  simp only [htools, Bool.false_and, Bool.false_eq_true, if_false]
  have hguardedModel : ({ req with messages := messages } : ChatCompletionRequest).model = req.model := rfl
  refine .bind (balance_serveFallback h hmany hguardedModel hstream) (fun served s₅ hs => ?_)
    fun _ _ _ _ => nofun
  obtain ⟨hcounter', hserved⟩ := hs
  refine (balance_pass Performs.finishChat (by simp)).mono fun out s₆ hs response _ => ?_
  subst hs
  rw [hcounter', hserved, hcounter]
  exact ⟨by rw [BitVec.add_assoc]; rfl, rfl⟩

end Request

/-! ## Windows -/

section Windows

variable {state : AppState} {publicId : String} {rows : List Model} {lb : LoadBalancer}
  {exchanges : List Exchange}

theorem after_served (s : Balance) (tr : Trace) :
    ((balanceMonitor state).after s tr).served = tr.foldl servedStep s.served := by
  induction tr generalizing s with
  | nil => rfl
  | cons step rest ih => exact ih _

/-- What the balancer accepts does not depend on who answered last. -/
theorem safe_served {s s' : Balance} (hlb : s.lb = s'.lb) {tr : Trace}
    (h : (balanceMonitor state).Safe s tr) : (balanceMonitor state).Safe s' tr := by
  obtain ⟨lb, row⟩ := s
  obtain ⟨lb', row'⟩ := s'
  obtain rfl : lb = lb' := hlb
  induction tr generalizing lb row row' with
  | nil => trivial
  | cons step rest ih => exact ⟨h.1, ih _ _ h.2 _⟩

/-- The `j`-th request is served by the row that the counter had reached after `2 * j + 1` steps. -/
theorem Session.served (h : Replicas state.modelRouter publicId rows) (hmany : 2 ≤ rows.length)
    (hsession : Session state publicId lb exchanges) {j : Nat} {e : Exchange}
    (he : exchanges[j]? = some e) :
    servedRow e.trace
      = rows[strideRead 63 rows.length (rrCounter lb rows + 1).toNat j]? := by
  induction exchanges generalizing lb j with
  | nil => simp at he
  | cons first rest ih =>
      obtain ⟨req, hreq, hmodel, htools, hstream⟩ := hsession.requests first List.mem_cons_self
      have hrun := hsession.runs first List.mem_cons_self
      have hsafe := hsession.balanced
      rw [List.flatMap_cons, Monitor.safe_append] at hsafe
      obtain ⟨hcounter, hserved⟩ := balance_chatCompletions h hmany hreq hmodel htools hstream
        first.trace _ hrun hsafe.1 first.response rfl
      cases j with
      | zero =>
          obtain rfl : first = e := by simpa using he
          rw [after_served] at hserved
          rw [servedRow, hserved]
          simp [strideRead]
      | succ j =>
          have hrest : Session state publicId
              ((balanceMonitor state).after ⟨lb, none⟩ first.trace).lb rest :=
            ⟨fun e he => hsession.requests e (List.mem_cons_of_mem _ he),
              fun e he => hsession.runs e (List.mem_cons_of_mem _ he), safe_served (by rfl) hsafe.2⟩
          have hj := ih hrest (by simpa using he)
          rw [hcounter] at hj
          rw [hj]
          have hone : (1 : BitVec 64).toNat = 1 := rfl
          have htwo : (2 : BitVec 64).toNat = 2 := rfl
          congr 1
          unfold strideRead
          simp only [BitVec.toNat_add, hone, htwo]
          congr 1
          omega

/-- The served rows as readings of the counter. -/
theorem Session.getElem?_served (h : Replicas state.modelRouter publicId rows)
    (hmany : 2 ≤ rows.length) (hsession : Session state publicId lb exchanges) {j : Nat}
    (hj : j < exchanges.length) :
    (exchanges.map fun e => servedRow e.trace)[j]?
      = some rows[strideRead 63 rows.length (rrCounter lb rows + 1).toNat j]? := by
  rw [List.getElem?_map, List.getElem?_eq_getElem hj, Option.map_some,
    hsession.served h hmany (List.getElem?_eq_getElem hj)]

/-- In a run of consecutive requests every window is served by different rows exactly when there is
    one row only, or an odd number of them and no window in which the counter overflows. -/
theorem chat_fair_iff (h : Replicas state.modelRouter publicId rows)
    (hsession : Session state publicId lb exchanges) :
    Fair rows.length (exchanges.map fun e => servedRow e.trace)
      ↔ rows.length = 1 ∨ ∀ i, i + rows.length ≤ exchanges.length → Odd rows.length
          ∧ ((rrCounter lb rows).toNat + 1 + 2 * i) % 2 ^ 64 + 2 * (rows.length - 1) < 2 ^ 64 := by
  by_cases hone : rows.length = 1
  · refine iff_of_true (fun i hi => (nodup_window_iff hi).2 fun j hj k hk _ => ?_) (.inl hone)
    omega
  · have hmany : 2 ≤ rows.length := by
      have := List.length_pos_iff.2 h.nonempty
      omega
    rw [or_iff_right hone]
    refine forall_congr' fun i => ?_
    rw [List.length_map]
    refine imp_congr_right fun hi => ?_
    have hcounter : ((rrCounter lb rows + 1).toNat + 2 * i) % 2 ^ 64
        = ((rrCounter lb rows).toNat + 1 + 2 * i) % 2 ^ 64 := by
      simp only [BitVec.toNat_add, show (1 : BitVec 64).toNat = 1 from rfl, Nat.mod_add_mod]
    rw [← hcounter, ← strideRead_injective_iff hmany h.length_lt.le (Nat.mod_lt _ (by norm_num)),
      nodup_window_iff (by rwa [List.length_map])]
    have hsame : ∀ j < rows.length, ∀ k < rows.length,
        ((exchanges.map fun e => servedRow e.trace)[i + j]?
            = (exchanges.map fun e => servedRow e.trace)[i + k]?
          ↔ strideRead 63 rows.length (((rrCounter lb rows + 1).toNat + 2 * i) % 2 ^ 64) j
            = strideRead 63 rows.length (((rrCounter lb rows + 1).toNat + 2 * i) % 2 ^ 64) k) := by
      intro j hj k hk
      rw [hsession.getElem?_served h hmany (by omega), hsession.getElem?_served h hmany (by omega),
        strideRead_add, strideRead_add, Option.some_inj]
      exact (List.getElem?_inj (Nat.mod_lt _ (by omega)) h.nodup)
    exact forall₂_congr fun j hj => forall₂_congr fun k hk => imp_congr_left (hsame j hj k hk)

end Windows

/-! ## Two and three replicas -/

/-- A moderation service that is down. -/
def downService : ModerationService := fun _ => .error (.internal "")

/-- Answers under which every request is served. -/
def playAnswer (state : AppState) (lb : LoadBalancer) : (o : GatewayOp) → o.Answer
  | .newUuid => ""
  | .elapsed => Nat.zero
  | .unixTime => Int.ofNat 0
  | .sleep _ => ()
  | .timedSleep _ => none
  | .resolve modelRef capability => (state.modelRouter.resolve lb modelRef capability).1
  | .recordLatency _ _ => ()
  | .getOrganization id => .ok (Possible.openOrganization id)
  | .checkAndConsume _ => .ok ()
  | .checkEndUserBudget _ _ => .ok ()
  | .checkTeamBudget _ => .ok ()
  | .preCall request requestId =>
    (Possible.noGuardrails.preCall downService request requestId).1
  | .postCall response requestId =>
    (Possible.noGuardrails.postCall downService response requestId).1
  | .adapter _ _ => .ok (.chat emptyCompletion, .default)
  | .timedAdapter _ _ => some (.ok (.chat emptyCompletion, .default))
  | .adapterStream _ _ => .ok []
  | .passthrough _ _ _ _ => .failed ""
  | .mcpTools => []
  | .mcpCall _ _ => .error ""
  | .searxngSearch _ _ => .ok []
  | .metrics _ => ()
  | .spawnRequestLog _ => ()

/-- The answers of the sample gateway. -/
def playHandler (state : AppState) (o : GatewayOp) (s : Balance) : o.Answer × Balance :=
  (playAnswer state s.lb o, (balanceMonitor state).next s ⟨o, playAnswer state s.lb o⟩)

/-- A request served with these answers. -/
def play (state : AppState) (s : Balance) : Except Fault Response × Trace × Balance :=
  (chatCompletions state (openKey []) none sampleBody).exec (playHandler state) s

theorem play_safe (state : AppState) (s : Balance) :
    (chatCompletions state (openKey []) none sampleBody).Runs state.env (play state s).2.1 (play state s).1
      ∧ (balanceMonitor state).Safe s (play state s).2.1
      ∧ (balanceMonitor state).after s (play state s).2.1 = (play state s).2.2 := by
  refine @Monitor.exec_safe Gateway (balanceMonitor state) state.env _ _ (playHandler state)
    (fun o s => ?_) (fun o s => ?_) (fun _ _ => rfl) _ s
  · cases o <;> first | exact trivial | exact ⟨s.lb, rfl⟩ | exact ⟨Possible.noGuardrails, downService, rfl⟩
  · cases o with
    | resolve modelRef capability => exact ⟨s.lb, fun _ => rfl, rfl⟩
    | adapter resolved request =>
        cases request with
        | chat req => exact ⟨emptyCompletion, .default, rfl, validateCompletion_empty state _⟩
        | embedding | imageGeneration | audioTts | audioStt | imageEdit => exact trivial
    | _ => exact trivial

/-- Requests served one after the other, up to the first that fails. -/
def playSession (state : AppState) : Nat → Balance → List Exchange
  | 0, _ => []
  | n + 1, s =>
    match play state s with
    | (.ok response, tr, s') => ⟨openKey [], none, sampleBody, tr, response⟩ :: playSession state n s'
    | (.error _, _, _) => []

theorem playSession_safe (state : AppState) (n : Nat) (s : Balance) :
    (∀ e ∈ playSession state n s, e.body = sampleBody
        ∧ (chatCompletions state e.apiKey e.tags e.body).Runs state.env e.trace (.ok e.response))
      ∧ (balanceMonitor state).Safe s ((playSession state n s).flatMap Exchange.trace) := by
  induction n generalizing s with
  | zero => exact ⟨by simp [playSession], trivial⟩
  | succ n ih =>
      obtain ⟨hrun, hsafe, hafter⟩ := play_safe state s
      unfold playSession
      rcases hplay : play state s with ⟨e | response, tr, s'⟩
      · exact ⟨by simp, trivial⟩
      · rw [hplay] at hrun hsafe hafter
        obtain ⟨hruns, hrest⟩ := ih s'
        refine ⟨List.forall_mem_cons.2 ⟨⟨rfl, hrun⟩, hruns⟩, ?_⟩
        rw [List.flatMap_cons, Monitor.safe_append]
        exact ⟨hsafe, by rw [hafter]; exact hrest⟩

theorem playSession_session (router : DbModelRouter) (n : Nat) (lb : LoadBalancer) :
    Session (sampleState router sampleParser) "gpt" lb
      (playSession (sampleState router sampleParser) n ⟨lb, none⟩) := by
  obtain ⟨hruns, hsafe⟩ := playSession_safe (sampleState router sampleParser) n ⟨lb, none⟩
  refine ⟨fun e he => ⟨sampleRequest, ?_, rfl, rfl, rfl⟩, fun e he => (hruns e he).2, hsafe⟩
  rw [(hruns e he).1]
  exact if_pos rfl

theorem replicaRouter_replicas :
    Replicas (replicaRouter true) "gpt" [sampleRow 1 "gpt" 11, sampleRow 2 "gpt" 12] := by
  refine ⟨by decide, by simp [DbModelRouter.candidates, replicaRouter, replicas, sampleRow], by simp, ?_, ?_,
    rfl⟩
  · simp [sampleRow, Model.hasCapability, Capability.asStr]
  · intro row hrow
    rcases List.mem_pair.1 hrow with rfl | rfl
    · exact ⟨sampleProfile 11 "east" true, ⟨"https://api.example.com/v1", none⟩, rfl, rfl, by decide⟩
    · exact ⟨sampleProfile 12 "west" true, ⟨"https://api.example.com/v1", none⟩, rfl, rfl, by decide⟩

/-- Two replicas: both of two requests in a row are served by the second. -/
theorem chat_not_fair :
    ¬ ∀ (state : AppState) (publicId : String) (rows : List Model) (lb : LoadBalancer)
        (exchanges : List Exchange), Replicas state.modelRouter publicId rows →
        Session state publicId lb exchanges →
          Fair rows.length (exchanges.map fun e => servedRow e.trace) := by
  intro hall
  have hsession := playSession_session (replicaRouter true) 2 .new
  have hlength : (playSession (sampleState (replicaRouter true) sampleParser) 2 ⟨.new, none⟩).length = 2 := by
    decide +kernel
  have hfair := hall _ "gpt" _ .new _ replicaRouter_replicas hsession 0 (by simp [hlength])
  have hserved : ∀ j < 2, ((playSession (sampleState (replicaRouter true) sampleParser) 2
      ⟨.new, none⟩).map fun e => servedRow e.trace)[0 + j]? = some (some (sampleRow 2 "gpt" 12)) := by
    intro j hj
    rw [Nat.zero_add, hsession.getElem?_served replicaRouter_replicas (by simp) (by omega)]
    rcases (by omega : j = 0 ∨ j = 1) with rfl | rfl <;> rfl
  have hsame := (nodup_window_iff (by simp [hlength])).1 hfair 0 (by simp) 1 (by simp)
    ((hserved 0 (by simp)).trans (hserved 1 (by simp)).symm)
  exact absurd hsame (by decide)

/-- Three replicas of one id. -/
def tripleCatalog : Catalog where
  models := [sampleRow 1 "gpt" 11, sampleRow 2 "gpt" 12, sampleRow 3 "gpt" 13]
  profiles := [sampleProfile 11 "east" true, sampleProfile 12 "west" true, sampleProfile 13 "north" true]
  modelIds_nodup := by decide
  profileIds_nodup := by simp [sampleProfile]
  profileNames_nodup := by simp [sampleProfile]
  publicIds_nodup := by decide
  profile_exists := by simp [sampleRow, sampleProfile]
  models_bounded := by simp

/-- The router over that catalog. -/
def tripleRouter : DbModelRouter :=
  ⟨tripleCatalog, ["openai"], fun _ => .error "none stored", fun _ => .ok ""⟩

theorem tripleRouter_replicas :
    Replicas tripleRouter "gpt"
      [sampleRow 1 "gpt" 11, sampleRow 2 "gpt" 12, sampleRow 3 "gpt" 13] := by
  refine ⟨by decide, by simp [DbModelRouter.candidates, tripleRouter, tripleCatalog, sampleRow], by simp, ?_,
    ?_, rfl⟩
  · simp [sampleRow, Model.hasCapability, Capability.asStr]
  · intro row hrow
    simp only [List.mem_cons, List.not_mem_nil, or_false] at hrow
    rcases hrow with rfl | rfl | rfl
    · exact ⟨sampleProfile 11 "east" true, ⟨"https://api.example.com/v1", none⟩, rfl, rfl, by decide⟩
    · exact ⟨sampleProfile 12 "west" true, ⟨"https://api.example.com/v1", none⟩, rfl, rfl, by decide⟩
    · exact ⟨sampleProfile 13 "north" true, ⟨"https://api.example.com/v1", none⟩, rfl, rfl, by decide⟩

/-- Three replicas: six requests from a fresh balancer on. -/
theorem chat_fair_triple :
    (playSession (sampleState tripleRouter sampleParser) 6 ⟨.new, none⟩).length = 6
      ∧ Fair 3 ((playSession (sampleState tripleRouter sampleParser) 6 ⟨.new, none⟩).map
        fun e => servedRow e.trace) := by
  have hlength : (playSession (sampleState tripleRouter sampleParser) 6 ⟨.new, none⟩).length = 6 := by
    decide +kernel
  have hfair := chat_fair_iff tripleRouter_replicas (playSession_session tripleRouter 6 .new)
  refine ⟨hlength, hfair.2 (.inr fun i hi => ⟨by decide, ?_⟩)⟩
  have hcounter : (rrCounter .new [sampleRow 1 "gpt" 11, sampleRow 2 "gpt" 12, sampleRow 3 "gpt" 13]).toNat
      = 0 := rfl
  rw [hlength] at hi
  simp only [List.length_cons, List.length_nil] at hi ⊢
  rw [hcounter]
  omega

end Godwit
