import Godwit.Lib.Interruption
import Godwit.Api.ActiveRequests
import Godwit.Api.Proofs.Operations
import Godwit.Api.Proofs.PossibleRuns
import Godwit.Api.Proofs.Spending

set_option autoImplicit false

/-! # The gauge balances exactly when no request is lost

`activePhases` reads what one handler does: it increments once, decrements the same label, and awaits nothing after
that (`chatCompletions_phases`). So the steps of a handler have changed the gauge by one while it is between the two
and by nothing otherwise, and a handler that returns is not between them. A request whose future goes away there is
counted forever. -/

namespace Godwit

section Lists

variable {α : Type} {P : α → Prop} {front rest : List α} {old new : α}

/-- The elements around the one at an index. -/
theorem exists_split_of_getElem? {l : List α} {i : Nat} {a : α} (h : l[i]? = some a) :
    ∃ front rest, l = front ++ a :: rest ∧ ∀ b, l.set i b = front ++ b :: rest := by
  obtain ⟨hi, rfl⟩ := List.getElem?_eq_some_iff.1 h
  refine ⟨l.take i, l.drop (i + 1), by simp, fun b => ?_⟩
  rw [List.set_eq_take_append_cons_drop, if_pos hi]

theorem forall_mem_replace (h : ∀ a ∈ front ++ old :: rest, P a) (hnew : P new) :
    ∀ a ∈ front ++ new :: rest, P a := by
  rw [List.forall_mem_append, List.forall_mem_cons] at h ⊢
  exact ⟨h.1, hnew, h.2.2⟩

theorem exists_mem_replace_iff (hold : ¬ P old) :
    (∃ a ∈ front ++ new :: rest, P a) ↔ (∃ a ∈ front ++ old :: rest, P a) ∨ P new := by
  simp only [List.mem_append, List.mem_cons, or_and_right, exists_or, exists_eq_left, hold, false_or, or_assoc]
  exact or_congr_right or_comm

end Lists

/-! ## What an operation does to the gauge -/

/-- The change of the gauge at a label. -/
def GatewayOp.change (label : String × String) (o : GatewayOp) : Int :=
  if o.increment = some label then 1 else if o.decrement = some label then -1 else 0

theorem ActiveGauge.perform_apply (gauge : ActiveGauge) (o : GatewayOp) (label : String × String) :
    gauge.perform o label = gauge label + o.change label := by
  cases o with
  | metrics event =>
      cases event with
      | incrementActive model provider =>
          by_cases hlabel : (model, provider) = label
          · subst hlabel
            simp [perform, GatewayOp.change, GatewayOp.increment]
          · simp [perform, GatewayOp.change, GatewayOp.increment, GatewayOp.decrement, hlabel,
              Function.update_of_ne (Ne.symm hlabel)]
      | decrementActive model provider =>
          by_cases hlabel : (model, provider) = label
          · subst hlabel
            simp [perform, GatewayOp.change, GatewayOp.increment, GatewayOp.decrement, Int.sub_eq_add_neg]
          · simp [perform, GatewayOp.change, GatewayOp.increment, GatewayOp.decrement, hlabel,
              Function.update_of_ne (Ne.symm hlabel)]
      | recordRequest | recordTokens => exact (Int.add_zero _).symm
  | _ => exact (Int.add_zero _).symm

/-! ## One handler -/

/-- Where a handler is: before its increment, between the two, past its decrement. -/
inductive ActivePhase where
  | before
  | inside (label : String × String)
  | past (label : String × String)
  deriving DecidableEq

/-- What the operation makes of the phase. -/
def ActivePhase.next (phase : ActivePhase) (o : GatewayOp) : ActivePhase :=
  match o.increment, o.decrement with
  | some label, _ => .inside label
  | none, some label => .past label
  | none, none => phase

/-- One increment, one decrement of the same label, and no await after it. -/
abbrev activePhases : Monitor Gateway where
  State := ActivePhase
  next phase step := phase.next step.op
  accepts phase step :=
    (∀ label, step.op.increment = some label → phase = .before)
      ∧ (∀ label, step.op.decrement = some label → phase = .inside label)
      ∧ (step.op.awaits → ∀ label, phase ≠ .past label)

/-- Any answer at all. -/
abbrev anyWorld : Environment Gateway := fun _ _ => True

theorem anyWorld_total (state : AppState) : ∀ o, ∃ answer, anyWorld o answer := by
  intro o
  obtain ⟨answer, -⟩ := state.env_total o
  exact ⟨answer, trivial⟩

namespace ActivePhases

variable {ε α : Type} {phase : ActivePhase} {label : String × String} {state : AppState} {resolved : ResolvedModel}
  {model provider requestId : String}

/-- An operation that leaves the gauge alone. -/
theorem other {o : GatewayOp} {answer : o.Answer} (ho : o.kind ≠ .metrics) (hpast : ∀ label, phase ≠ .past label) :
    activePhases.accepts phase ⟨o, answer⟩ ∧ activePhases.next phase ⟨o, answer⟩ = phase := by
  cases o with
  | metrics event => exact absurd rfl ho
  | _ => exact ⟨⟨nofun, nofun, fun _ => hpast⟩, rfl⟩

theorem quiet {P : GatewayOp → Prop} {p : App ε α} (hp : p.Only P) (hP : ∀ o, P o → o.kind ≠ .metrics)
    (hpast : ∀ label, phase ≠ .past label) :
    activePhases.Ensures anyWorld phase p (fun _ phase' => phase' = phase) fun _ phase' => phase' = phase :=
  .quiet hp fun _ hstep => other (hP _ hstep) hpast

theorem performs {kinds : List OpKind} {p : App ε α} (hp : Performs kinds p) (hmetrics : .metrics ∉ kinds)
    (hpast : ∀ label, phase ≠ .past label) :
    activePhases.Ensures anyWorld phase p (fun _ phase' => phase' = phase) fun _ phase' => phase' = phase :=
  quiet hp (fun _ ho hkind => hmetrics (hkind ▸ ho)) hpast

/-- An operation that is awaited. -/
theorem await {o : GatewayOp} {f : o.Answer → App ε α} {Q : α → ActivePhase → Prop} {E : ε → ActivePhase → Prop}
    (ho : o.kind ≠ .metrics) (hpast : ∀ label, phase ≠ .past label)
    (h : ∀ answer, activePhases.Ensures anyWorld phase (f answer) Q E) :
    activePhases.Ensures anyWorld phase (ask o >>= f) Q E := by
  refine .perform fun answer _ => ?_
  have hother : activePhases.accepts phase ⟨o, answer⟩ ∧ activePhases.next phase ⟨o, answer⟩ = phase :=
    other ho hpast
  exact ⟨hother.1, by rw [hother.2]; exact h answer⟩

/-- An operation that returns at once and leaves the gauge alone. -/
theorem skip {o : GatewayOp} {f : o.Answer → App ε α} {Q : α → ActivePhase → Prop} {E : ε → ActivePhase → Prop}
    (hincrement : o.increment = none) (hdecrement : o.decrement = none) (hawaits : o.awaits = false)
    (h : ∀ answer, activePhases.Ensures anyWorld phase (f answer) Q E) :
    activePhases.Ensures anyWorld phase (ask o >>= f) Q E := by
  refine .perform fun answer _ => ⟨⟨?_, ?_, ?_⟩, ?_⟩
  · simp [hincrement]
  · simp [hdecrement]
  · simp [hawaits]
  · simpa only [activePhases, ActivePhase.next, hincrement, hdecrement] using h answer

theorem increment {f : Unit → App ε α} {Q : α → ActivePhase → Prop} {E : ε → ActivePhase → Prop}
    (h : activePhases.Ensures anyWorld (.inside (model, provider)) (f ()) Q E) :
    activePhases.Ensures anyWorld .before (recordMetrics (.incrementActive model provider) >>= f) Q E :=
  .perform fun _ _ => ⟨⟨fun _ _ => rfl, nofun, nofun⟩, h⟩

theorem decrement {f : Unit → App ε α} {Q : α → ActivePhase → Prop} {E : ε → ActivePhase → Prop}
    (h : activePhases.Ensures anyWorld (.past (model, provider)) (f ()) Q E) :
    activePhases.Ensures anyWorld (.inside (model, provider))
      (recordMetrics (.decrementActive model provider) >>= f) Q E := by
  refine .perform fun _ _ => ⟨⟨nofun, ?_, nofun⟩, h⟩
  rintro _ ⟨⟩
  rfl

/-- The end of a handler: a result comes past the decrement, an error not between the two. -/
abbrev Served (p : App Fault α) (phase : ActivePhase) : Prop :=
  activePhases.Ensures anyWorld phase p (fun _ phase' => ∃ label, phase' = .past label)
    fun e phase' => e ≠ .panic → ∀ label, phase' ≠ .inside label

/-- A part of the handler between the two: it stays there, or fails. -/
abbrev Stays (p : App Fault α) (phase : ActivePhase) : Prop :=
  activePhases.Ensures anyWorld phase p (fun _ phase' => phase' = phase)
    fun e phase' => e ≠ .panic → ∀ label, phase' ≠ .inside label

theorem orPanic {a : Option α} : Stays (Godwit.orPanic a) phase := by
  cases a with
  | none => exact .throw fun h => absurd rfl h
  | some a => exact .pure rfl

/-- A request that is turned down has passed its decrement. -/
theorem failed {e : ApiError} {Q : α → ActivePhase → Prop} :
    activePhases.Ensures anyWorld (.past label) (Program.throw (Fault.api e)) Q
      fun e phase' => e ≠ .panic → ∀ label, phase' ≠ .inside label :=
  .throw fun _ _ => nofun

theorem unresolved {r : Except PasteurError α} :
    Stays (orThrow (fun e => Fault.api (.fromCore e)) r) .before := by
  cases r with
  | error e => exact .throw fun _ _ => nofun
  | ok a => exact .pure rfl

theorem admission {apiKey : ApiKey} {estimatedTokens : Nat} {primary : Model} :
    Stays ((checkAdmission apiKey primary estimatedTokens).mapError Fault.api) .before := by
  have hquiet : activePhases.Ensures anyWorld .before (checkAdmission apiKey primary estimatedTokens)
      (fun _ phase' => phase' = .before) fun _ phase' => phase' = .before :=
    performs Performs.checkAdmission (by simp) nofun
  refine .mapError (hquiet.mono (fun _ _ h => h) fun e phase' h => ?_)
  subst h
  exact fun _ _ => nofun

theorem guardRequest {req : ChatCompletionRequest} :
    Stays (guardRequest model provider requestId req) .before := by
  refine await nofun nofun fun answer => ?_
  cases answer with
  | none => exact .throw fun h => absurd rfl h
  | some verdict =>
      obtain ⟨req', verdict⟩ := verdict
      cases verdict with
      | error e => exact increment (decrement failed)
      | ok verdict =>
          cases verdict with
          | allowed => exact .pure rfl
          | blocked result => exact increment (decrement failed)

theorem guardCompletion {completion : ChatCompletionResponse} :
    Stays (guardCompletion model provider requestId completion) (.inside (model, provider)) := by
  refine await nofun nofun fun answer => ?_
  cases answer with
  | none => exact .throw fun h => absurd rfl h
  | some verdict =>
      obtain ⟨completion', verdict⟩ := verdict
      cases verdict with
      | error e => exact decrement failed
      | ok verdict =>
          cases verdict with
          | allowed => exact .pure rfl
          | blocked result => exact decrement failed

theorem failChat {e : ApiError} :
    Stays (failChat model provider e : App Fault α) (.inside (model, provider)) :=
  decrement (skip rfl rfl rfl fun _ => skip rfl rfl rfl fun _ => failed)

theorem mergeAgenticTools {req : ChatCompletionRequest} :
    Stays (mergeAgenticTools state req) (.inside label) := by
  refine await nofun nofun fun tools => ?_
  dsimp only
  split_ifs <;> exact .pure rfl

theorem serveAgentic {req : ChatCompletionRequest} :
    Stays (serveAgentic state resolved model provider requestId req) (.inside (model, provider)) := by
  refine .bind mergeAgenticTools (fun merged phase' h => ?_) fun _ _ h => h
  subst h
  refine .attempt (performs Performs.executeFrom (by simp) nofun) (fun result phase' h => ?_) fun e phase' h => ?_
  · subst h
    obtain ⟨completion, totalUsage⟩ := result
    refine .bind guardCompletion (fun guarded phase' h => ?_) fun _ _ h => h
    subst h
    refine .bind orPanic (fun cost phase' h => ?_) fun _ _ h => h
    subst h
    exact .pure rfl
  · subst h
    exact failChat

theorem serveFallback {req : ChatCompletionRequest} :
    Stays (serveFallback state model provider req) (.inside (model, provider)) := by
  have hcalls : activePhases.Ensures anyWorld (.inside (model, provider)) (callChatWithFallback state req.model req)
      (fun _ phase' => phase' = .inside (model, provider)) fun _ phase' => phase' = .inside (model, provider) :=
    quiet (callChatFrom_only (P := fun o => o.kind ≠ .metrics) (fun o ho => by simp [ho])
      (fun o ho => by simp [kind_of_chatMessages ho]) fun modelRef => by simp [GatewayOp.kind]) (fun _ h => h) nofun
  refine .attempt hcalls (fun result phase' h => ?_) fun e phase' h => ?_
  · subst h
    exact .pure rfl
  · subst h
    exact failChat

theorem recordUsage {usage : Option UsageReport} :
    Stays (recordUsage model usage) phase := by
  unfold Godwit.recordUsage
  cases usage.bind UsageReport.promptTokens <;> cases usage.bind UsageReport.completionTokens
  · exact .pure rfl
  · exact skip rfl rfl rfl fun _ => .pure rfl
  · exact skip rfl rfl rfl fun _ => .pure rfl
  · exact skip rfl rfl rfl fun _ => skip rfl rfl rfl fun _ => .pure rfl

theorem finishChat {apiKey : ApiKey} {primary : Model} {streamed : Bool} {tags : List String} {served : ChatServed} :
    Served (finishChat state apiKey primary model provider streamed tags served) (.inside (model, provider)) := by
  have hlog : ∀ cost, Served
      (do
        let duration ← ask .elapsed
        ask (.spawnRequestLog (chatLog apiKey primary served streamed tags cost duration))
        pure served.response : App Fault Response) (.past (model, provider)) := fun cost =>
    skip rfl rfl rfl fun _ => skip rfl rfl rfl fun _ => .pure ⟨_, rfl⟩
  refine decrement (skip rfl rfl rfl fun _ => skip rfl rfl rfl fun _ => ?_)
  refine .bind recordUsage (fun _ phase' h => ?_) fun _ _ h => h
  subst h
  dsimp only
  cases served.usage with
  | none => exact hlog none
  | some usage =>
      refine .bind orPanic (fun cost phase' h => ?_) fun _ _ h => h
      subst h
      exact hlog cost

theorem chatCompletionsOn {apiKey : ApiKey} {tags : List String} {req : ChatCompletionRequest} :
    Served (chatCompletionsOn state apiKey tags requestId req) .before := by
  refine await nofun nofun fun answer => .bind unresolved (fun primary phase' h => ?_) fun _ _ h => h
  subst h
  refine .bind admission (fun _ phase' h => ?_) fun _ _ h => h
  subst h
  refine .bind guardRequest (fun guarded phase' h => ?_) fun _ _ h => h
  subst h
  refine increment ?_
  dsimp only
  split_ifs
  · refine .bind serveAgentic (fun served phase' h => ?_) fun _ _ h => h
    subst h
    exact finishChat
  · refine .bind serveFallback (fun served phase' h => ?_) fun _ _ h => h
    subst h
    exact finishChat

theorem chatCompletions {apiKey : ApiKey} {tagsHeader : Option String} {body : Bytes} :
    Served (chatCompletions state apiKey tagsHeader body) .before := by
  refine skip rfl rfl rfl fun requestId => .bind orPanic (fun req phase' h => ?_) fun _ _ h => h
  subst h
  exact chatCompletionsOn

end ActivePhases

/-! ## The phase of a call -/

/-- The label of a phase, whether it is past the decrement, and what it adds to the gauge. -/
def ActivePhase.label : ActivePhase → Option (String × String)
  | .before => none
  | .inside label => some label
  | .past label => some label

/-- What the request has left in the gauge of a label. -/
def ActivePhase.balance (label : String × String) (phase : ActivePhase) : Int :=
  if phase = .inside label then 1 else 0

/-- What the run does to the gauge of a label. -/
def Trace.change (label : String × String) (tr : Trace) : Int := (tr.map fun step => step.op.change label).sum

theorem Trace.change_append_singleton (label : String × String) (tr : Trace) (step : Step Gateway) :
    Trace.change label (tr ++ [step]) = Trace.change label tr + step.op.change label := by
  simp [Trace.change]

/-- What the steps of a handler say about its phase. -/
structure TracePhase (tr : Trace) (phase : ActivePhase) : Prop where
  label : (tr.findSome? fun step => step.op.increment) = phase.label
  decremented : (tr.any fun step => step.op.decrement.isSome) = true ↔ ∃ label, phase = .past label
  change : ∀ label, Trace.change label tr = phase.balance label

/-- What an accepted step does. -/
theorem ActivePhase.next_cases {phase : ActivePhase} {step : Step Gateway} (h : activePhases.accepts phase step) :
    (∃ label, step.op.increment = some label ∧ step.op.decrement = none
        ∧ phase = .before ∧ phase.next step.op = .inside label)
      ∨ (∃ label, step.op.increment = none ∧ step.op.decrement = some label
        ∧ phase = .inside label ∧ phase.next step.op = .past label)
      ∨ (step.op.increment = none ∧ step.op.decrement = none ∧ phase.next step.op = phase) := by
  obtain ⟨hincrement, hdecrement, -⟩ := h
  unfold ActivePhase.next
  cases hup : step.op.increment with
  | some label =>
      obtain rfl := hincrement label hup
      cases hdown : step.op.decrement with
      | some label' => exact nomatch hdecrement label' hdown
      | none => exact .inl ⟨label, rfl, rfl, rfl, rfl⟩
  | none =>
      cases hdown : step.op.decrement with
      | some label => exact .inr (.inl ⟨label, rfl, rfl, hdecrement label hdown, rfl⟩)
      | none => exact .inr (.inr ⟨rfl, rfl, rfl⟩)

theorem tracePhase {tr : Trace} (hsafe : activePhases.Safe .before tr) :
    TracePhase tr (activePhases.after .before tr) := by
  induction tr using List.reverseRecOn with
  | nil => exact ⟨rfl, by simp, fun label => rfl⟩
  | append_singleton tr step ih =>
      obtain ⟨hsafe, haccepts, -⟩ := Monitor.safe_append.1 hsafe
      obtain ⟨hlabel, hdecremented, hchange⟩ := ih hsafe
      have hnext : activePhases.after .before (tr ++ [step])
          = (activePhases.after .before tr).next step.op := Monitor.after_append _ _ _
      rw [hnext]
      rcases ActivePhase.next_cases haccepts with
        ⟨label, hup, hdown, hphase, h⟩ | ⟨label, hup, hdown, hphase, h⟩ | ⟨hup, hdown, h⟩
      · rw [hphase] at hlabel hdecremented hchange
        refine ⟨?_, ?_, fun other => ?_⟩
        · simp [h, hlabel, hup, ActivePhase.label]
        · simpa [h, hdown] using hdecremented
        · rw [Trace.change_append_singleton, hchange, h]
          simp [ActivePhase.balance, GatewayOp.change, hup, hdown]
      · rw [hphase] at hlabel hdecremented hchange
        refine ⟨?_, ?_, fun other => ?_⟩
        · simp [h, hlabel, hup, ActivePhase.label]
        · simp [h, hdown]
        · rw [Trace.change_append_singleton, hchange, h]
          by_cases hother : label = other <;> simp [ActivePhase.balance, GatewayOp.change, hup, hdown, hother]
      · refine ⟨?_, ?_, fun other => ?_⟩
        · simp [h, hlabel, hup]
        · simpa [h, hdown] using hdecremented
        · rw [Trace.change_append_singleton, hchange, h]
          simp [GatewayOp.change, hup, hdown]

namespace ActiveCall

variable {call moved : ActiveCall} {step : Step Gateway} {answers : (o : GatewayOp) → o.Answer}

/-- The call is one of `chat_completions`, and a cancelled one stands at an await point. -/
structure Follows (call : ActiveCall) : Prop where
  does : ∃ state apiKey tagsHeader body, (chatCompletions state apiKey tagsHeader body).Does call.done call.left
  cancelled : call.cancelled → call.awaits ∧ ¬ call.returned

theorem Follows.phase (h : call.Follows) : ∃ phase, TracePhase call.done phase
    ∧ (call.awaits → ∀ label, phase ≠ .past label) ∧ (call.returned → ∀ label, phase ≠ .inside label) := by
  obtain ⟨done, left, cancelled⟩ := call
  obtain ⟨state, apiKey, tagsHeader, body, hdoes⟩ := h.does
  obtain ⟨hsafe, hleft⟩ := Monitor.Ensures.of_does (anyWorld_total state) ActivePhases.chatCompletions hdoes
    fun _ _ => trivial
  refine ⟨_, tracePhase hsafe, fun hawaits => ?_, fun hreturned => ?_⟩
  · cases done with
    | nil => exact nofun
    | cons step tr =>
        cases left with
        | op o k =>
            obtain ⟨answer, hanswer⟩ := anyWorld_total state o
            exact (Monitor.Ensures.accepts (anyWorld_total state) hleft hanswer).2.2 hawaits
        | pure response => exact nomatch hawaits
        | throw e => exact nomatch hawaits
  · cases left with
    | op o k => exact nomatch hreturned
    | pure response =>
        obtain ⟨label, hpast⟩ := (hleft [] _ (.pure response)).2
        intro label' hinside
        exact nomatch hinside.symm.trans hpast
    | throw e =>
        cases e with
        | panic => exact nomatch hreturned
        | api e => exact (hleft [] _ (.throw _)).2 nofun

/-- A handler at an await point has not passed its decrement. -/
theorem Follows.not_decremented (h : call.Follows) (hawaits : call.awaits) : call.decremented = false := by
  obtain ⟨phase, hphase, hpast, -⟩ := h.phase
  rw [Bool.eq_false_iff]
  intro hdecremented
  obtain ⟨label, hlabel⟩ := hphase.decremented.1 hdecremented
  exact hpast hawaits label hlabel

/-- What a call has added to the gauge: one while it is in, and one when it is lost. -/
theorem Follows.change (h : call.Follows) (label : String × String) :
    Trace.change label call.done = (if call.active label && !call.decremented then 1 else 0)
      + if call.lost && decide (call.label = some label) then 1 else 0 := by
  obtain ⟨phase, hphase, -, hreturned⟩ := h.phase
  have hphaseLabel : call.label = phase.label := hphase.label
  have hdecremented : call.decremented = true ↔ ∃ label, phase = .past label := hphase.decremented
  rw [hphase.change]
  by_cases hlabel : call.label = some label
  · cases hdown : call.decremented with
    | true =>
        obtain ⟨other, rfl⟩ := hdecremented.1 hdown
        simp [ActivePhase.balance, lost, inside, hdown]
    | false =>
        obtain rfl : phase = .inside label := by
          rw [hlabel] at hphaseLabel
          cases phase with
          | before => exact nomatch hphaseLabel
          | inside other =>
              cases hphaseLabel
              rfl
          | past other => exact absurd (hdecremented.2 ⟨other, rfl⟩) (by simp [hdown])
        -- the handler has not returned: it is live, or it is lost
        have hrunning : call.returned = false := Bool.eq_false_iff.2 fun h => hreturned h label rfl
        cases hdropped : call.dropped <;>
          simp [ActivePhase.balance, active, live, lost, inside, hlabel, hdown, hrunning, hdropped]
  · have hbalance : phase.balance label = 0 := by
      refine if_neg ?_
      rintro rfl
      exact hlabel hphaseLabel
    simp [hbalance, active, hlabel]

/-- A new call has done nothing. -/
theorem follows_new (state : AppState) (apiKey : ApiKey) (tagsHeader : Option String) (body : Bytes) :
    (new state apiKey tagsHeader body).Follows :=
  ⟨⟨state, apiKey, tagsHeader, body, .stop _⟩, nofun⟩

theorem Follows.advance (h : call.Follows) (hmoved : call.advance answers = some (step, moved)) :
    moved.Follows ∧ moved.done = call.done ++ [step] := by
  obtain ⟨done, left, cancelled⟩ := call
  obtain ⟨state, apiKey, tagsHeader, body, hdoes⟩ := h.does
  cases left with
  | op o k =>
      simp only [ActiveCall.advance] at hmoved
      split_ifs at hmoved
      cases hmoved
      exact ⟨⟨⟨state, apiKey, tagsHeader, body, hdoes.next _⟩, nofun⟩, rfl⟩
  | pure response => exact nomatch hmoved
  | throw e => exact nomatch hmoved

/-- A handler that goes on has not been dropped. -/
theorem not_dropped_of_advance (hmoved : call.advance answers = some (step, moved)) : call.dropped = false := by
  obtain ⟨done, left, cancelled⟩ := call
  cases left with
  | op o k =>
      simp only [ActiveCall.advance] at hmoved
      split_ifs at hmoved with hcancelled
      simpa [dropped, panicked] using hcancelled
  | pure response => exact nomatch hmoved
  | throw e => exact nomatch hmoved

theorem Follows.cancel (h : call.Follows) (hawaits : call.awaits) (hlive : call.live) :
    ActiveCall.Follows { call with cancelled := true } := by
  refine ⟨h.does, fun _ => ⟨hawaits, fun hreturned => ?_⟩⟩
  have hrunning : call.returned = true := hreturned
  simp [live, hrunning] at hlive

end ActiveCall

namespace ActiveRequests

variable {s : ActiveRequests} {e : ActiveEvent}

/-! ## One event -/

/-- An event does nothing, brings a request, or changes one call. -/
theorem step_cases (s : ActiveRequests) (e : ActiveEvent) :
    (s.step e = s ∧ ¬ s.Loses e)
      ∨ (∃ state apiKey tagsHeader body, ¬ s.Loses e
        ∧ s.step e = ⟨s.gauge, s.calls ++ [.new state apiKey tagsHeader body]⟩)
      ∨ (∃ front call rest answers step moved, s.calls = front ++ call :: rest
        ∧ call.advance answers = some (step, moved) ∧ (s.Loses e ↔ moved.lost)
        ∧ s.step e = ⟨s.gauge.perform step.op, front ++ moved :: rest⟩)
      ∨ ∃ front call rest, s.calls = front ++ call :: rest ∧ call.awaits ∧ call.live ∧ (s.Loses e ↔ call.inside)
        ∧ s.step e = ⟨s.gauge, front ++ { call with cancelled := true } :: rest⟩ := by
  cases e with
  | arrive state apiKey tagsHeader body => exact .inr (.inl ⟨state, apiKey, tagsHeader, body, id, rfl⟩)
  | perform i answers =>
      cases hcall : s.calls[i]? with
      | none => exact .inl (by simp [step, Loses, hcall])
      | some call =>
          cases hmoved : call.advance answers with
          | none => exact .inl (by simp [step, Loses, hcall, hmoved])
          | some result =>
              obtain ⟨step, moved⟩ := result
              obtain ⟨front, rest, hsplit, hset⟩ := exists_split_of_getElem? hcall
              refine .inr (.inr (.inl ⟨front, call, rest, answers, step, moved, hsplit, hmoved, ?_, ?_⟩))
              · simp [Loses, hcall, hmoved]
              · simp [ActiveRequests.step, hcall, hmoved, hset]
  | cancel i =>
      cases hcall : s.calls[i]? with
      | none => exact .inl (by simp [step, Loses, hcall])
      | some call =>
          by_cases hsuspended : call.awaits = true ∧ call.live = true
          · obtain ⟨front, rest, hsplit, hset⟩ := exists_split_of_getElem? hcall
            refine .inr (.inr (.inr ⟨front, call, rest, hsplit, hsuspended.1, hsuspended.2, ?_, ?_⟩))
            · simp [Loses, hcall, hsuspended]
            · simp [step, hcall, hsuspended, hset, Option.filter]
          · refine .inl ⟨?_, ?_⟩
            · simp [step, hcall, hsuspended, Option.filter]
            · rintro ⟨other, hother, hawaits, hlive, -⟩
              obtain rfl : call = other := by simpa [hcall] using hother
              exact hsuspended ⟨hawaits, hlive⟩

/-- The gauge has the changes of all calls. -/
structure Counted (s : ActiveRequests) : Prop where
  gauge : ∀ label, s.gauge label = (s.calls.map fun call => Trace.change label call.done).sum
  follows : ∀ call ∈ s.calls, call.Follows

theorem counted_new : new.Counted := ⟨fun _ => rfl, nofun⟩

theorem Counted.step (h : s.Counted) (e : ActiveEvent) : (s.step e).Counted := by
  rcases s.step_cases e with ⟨hstep, -⟩ | ⟨state, apiKey, tagsHeader, body, -, hstep⟩
    | ⟨front, call, rest, answers, step, moved, hcalls, hmoved, -, hstep⟩
    | ⟨front, call, rest, hcalls, hawaits, hlive, -, hstep⟩
  all_goals rw [hstep]
  · exact h
  · refine ⟨fun label => ?_, ?_⟩
    · simp [h.gauge, ActiveCall.new, Trace.change]
    · simp only [List.mem_append, List.mem_singleton]
      rintro call (hcall | rfl)
      · exact h.follows call hcall
      · exact ActiveCall.follows_new state apiKey tagsHeader body
  · have hfollows := hcalls ▸ h.follows
    have hcall : call.Follows := hfollows call (by simp)
    obtain ⟨hnext, hdone⟩ := hcall.advance hmoved
    refine ⟨fun label => ?_, forall_mem_replace hfollows hnext⟩
    have hgauge := h.gauge label
    rw [hcalls, List.map_append, List.map_cons, List.sum_append, List.sum_cons] at hgauge
    have hchange : Trace.change label moved.done = Trace.change label call.done + step.op.change label := by
      rw [hdone, Trace.change_append_singleton]
    change s.gauge.perform step.op label = _
    rw [ActiveGauge.perform_apply, hgauge, List.map_append, List.map_cons, List.sum_append, List.sum_cons, hchange]
    ring
  · have hfollows := hcalls ▸ h.follows
    have hcall : call.Follows := hfollows call (by simp)
    refine ⟨fun label => ?_, forall_mem_replace hfollows (hcall.cancel hawaits hlive)⟩
    rw [h.gauge, hcalls]
    simp

/-- A call is lost by the event that drops its future, and stays lost. -/
theorem lost_step_iff (s : ActiveRequests) (e : ActiveEvent) :
    (∃ call ∈ (s.step e).calls, call.lost) ↔ (∃ call ∈ s.calls, call.lost) ∨ s.Loses e := by
  rcases s.step_cases e with ⟨hstep, hloses⟩ | ⟨state, apiKey, tagsHeader, body, hloses, hstep⟩
    | ⟨front, call, rest, answers, step, moved, hcalls, hmoved, hloses, hstep⟩
    | ⟨front, call, rest, hcalls, hawaits, hlive, hloses, hstep⟩
  · rw [hstep, or_iff_left hloses]
  · have hnew : (ActiveCall.new state apiKey tagsHeader body).lost = false := by
      simp [ActiveCall.lost, ActiveCall.inside, ActiveCall.label, ActiveCall.new]
    simp [hstep, hloses, hnew, or_and_right, exists_or]
  · rw [hstep, hcalls, hloses]
    exact exists_mem_replace_iff (by simp [ActiveCall.lost, ActiveCall.not_dropped_of_advance hmoved])
  · have hdropped : call.dropped = false := by
      rw [ActiveCall.live, Bool.and_eq_true, Bool.not_eq_true'] at hlive
      simpa using hlive.2
    have hcancelled : ActiveCall.lost { call with cancelled := true } = call.inside := by
      simp [ActiveCall.lost, ActiveCall.dropped, ActiveCall.inside, ActiveCall.label, ActiveCall.decremented]
    rw [hstep, hcalls, hloses, ← hcancelled]
    exact exists_mem_replace_iff (by simp [ActiveCall.lost, hdropped])

/-! ## The balance -/

/-- The gauge counts the requests that are in and those that are lost. -/
theorem Counted.gauge_eq (h : s.Counted) (label : String × String) :
    s.gauge label = (s.calls.countP fun call => call.active label && !call.decremented)
      + s.calls.countP fun call => call.lost && decide (call.label = some label) := by
  have hcalls : ∀ calls : List ActiveCall, (∀ call ∈ calls, call.Follows) →
      (calls.map fun call => Trace.change label call.done).sum
        = (calls.countP fun call => call.active label && !call.decremented)
          + (calls.countP fun call => call.lost && decide (call.label = some label) : Int) := by
    intro calls hfollows
    induction calls with
    | nil => rfl
    | cons call calls ih =>
        obtain ⟨hcall, hfollows⟩ := List.forall_mem_cons.1 hfollows
        rw [List.map_cons, List.sum_cons, ih hfollows, hcall.change, List.countP_cons, List.countP_cons]
        push_cast
        ring
  rw [h.gauge, hcalls s.calls h.follows]

theorem Counted.balanced_iff (h : s.Counted) : s.Balanced ↔ ∀ call ∈ s.calls, ¬ call.lost := by
  constructor
  · intro hbalanced call hcall hlost
    have hinside : call.inside = true := (Bool.and_eq_true_iff.1 hlost).2
    obtain ⟨label, hlabel⟩ := Option.isSome_iff_exists.1 (Bool.and_eq_true_iff.1 hinside).1
    have hcount := (hbalanced.polled label).symm.trans (h.gauge_eq label)
    have hnone : (s.calls.countP fun call => call.lost && decide (call.label = some label)) = 0 := by omega
    exact List.countP_eq_zero.1 hnone call hcall (by simp [hlost, hlabel])
  · intro hlost
    have hpolled : ∀ label, s.gauge label = s.calls.countP fun call => call.active label && !call.decremented := by
      intro label
      have hnone : (s.calls.countP fun call => call.lost && decide (call.label = some label)) = 0 :=
        List.countP_eq_zero.2 fun call hcall h => hlost call hcall (Bool.and_eq_true_iff.1 h).1
      rw [h.gauge_eq, hnone, Nat.cast_zero, Int.add_zero]
    refine ⟨hpolled, fun hrest label => ?_, fun hended label => ?_⟩
    · rw [hpolled]
      refine congrArg Nat.cast (List.countP_congr fun call hcall => ?_)
      -- a handler at an await point is not on its way out
      cases hlive : call.live with
      | false => simp [ActiveCall.active, hlive]
      | true => simp [(h.follows call hcall).not_decremented (hrest call hcall hlive)]
    · rw [hpolled]
      refine congrArg Nat.cast (List.countP_eq_zero.2 fun call hcall => ?_)
      simp [ActiveCall.active, hended call hcall]

/-! ## Runs -/

theorem run_append_singleton (events : List ActiveEvent) (e : ActiveEvent) :
    run (events ++ [e]) = (run events).step e := by
  simp [run]

theorem counted_run (events : List ActiveEvent) : (run events).Counted := by
  induction events using List.reverseRecOn with
  | nil => exact counted_new
  | append_singleton events e ih =>
      rw [run_append_singleton]
      exact ih.step e

/-- A call is lost when some event of the run has lost it. -/
theorem run_lost_iff (events : List ActiveEvent) : (∃ call ∈ (run events).calls, call.lost)
    ↔ ∃ before e after, events = before ++ e :: after ∧ (run before).Loses e := by
  induction events using List.reverseRecOn with
  | nil => simp [run, new]
  | append_singleton events last ih =>
      rw [run_append_singleton, lost_step_iff, ih]
      constructor
      · rintro (⟨before, e, after, rfl, hloses⟩ | hloses)
        · exact ⟨before, e, after ++ [last], by simp, hloses⟩
        · exact ⟨events, last, [], rfl, hloses⟩
      · rintro ⟨before, e, after, hevents, hloses⟩
        rcases List.eq_nil_or_concat after with rfl | ⟨after, final, rfl⟩
        · obtain ⟨rfl, hlast⟩ := List.append_inj' hevents rfl
          cases hlast
          exact .inr hloses
        · rw [List.concat_eq_append, ← List.cons_append, ← List.append_assoc] at hevents
          obtain ⟨rfl, -⟩ := List.append_inj' hevents rfl
          exact .inl ⟨before, e, after, rfl, hloses⟩

/-- The gauge is balanced after a run exactly when no event of the run dropped a future between its increment and
    its decrement. -/
theorem run_balanced_iff (events : List ActiveEvent) : (run events).Balanced
    ↔ ∀ before e after, events = before ++ e :: after → ¬ (run before).Loses e := by
  rw [(counted_run events).balanced_iff]
  have hlost := not_congr (run_lost_iff events)
  push Not at hlost
  exact hlost

/-! ## A client that disconnects during the call of the provider -/

/-- One request for `gpt`, up to the call of the adapter; there its future is dropped. -/
def disconnected : List ActiveEvent :=
  .arrive pricedState (openKey []) none sampleBody :: List.replicate 8 (.perform 0 pricedAnswer) ++ [.cancel 0]

/-- The request has ended, and is counted forever. -/
theorem disconnected_unbalanced :
    ¬ ∀ events : List ActiveEvent,
      ((run events).AtRest →
        ∀ label, (run events).gauge label = (run events).calls.countP fun call => call.active label)
      ∧ ((∀ call ∈ (run events).calls, ¬ call.live) → ∀ label, (run events).gauge label = 0) := by
  intro hall
  have hended : ∀ call ∈ (run disconnected).calls, ¬ call.live := by decide +kernel
  have hzero : (run disconnected).gauge ("gpt", "openai") = 0 := (hall disconnected).2 hended _
  have hone : (run disconnected).gauge ("gpt", "openai") = 1 := by decide +kernel
  omega

end ActiveRequests

end Godwit
