import Godwit.Api.Router

set_option autoImplicit false

/-! # What a request has done so far

`Ledger` is the part of a run that the results about the endpoints are about: which references were
resolved, which admission checks passed, what the providers answered and what was logged. A `Rule`
says for which models a provider may be called, given that. -/

namespace Godwit

/-- The environment of a request: the router answers in some state of its load balancer, the
    guardrails in some state of their own and of the moderation service, everything else answers
    anything. -/
def AppState.env (state : AppState) : Environment Gateway := fun o =>
  match o with
  | .resolve modelRef capability => fun answer =>
    ∃ lb, (state.modelRouter.resolve lb modelRef capability).1 = answer
  | .preCall request requestId => fun answer =>
    ∃ (g : GuardrailsOrchestrator) (service : ModerationService),
      (g.preCall service request requestId).1 = answer
  | .postCall response requestId => fun answer =>
    ∃ (g : GuardrailsOrchestrator) (service : ModerationService),
      (g.postCall service response requestId).1 = answer
  | _ => fun _ => True

/-- The router can resolve the reference to this model. -/
def AppState.Resolves (state : AppState) (modelRef : String) (capability : Capability)
    (resolved : ResolvedModel) : Prop :=
  ∃ lb, (state.modelRouter.resolve lb modelRef capability).1 = .ok resolved

/-- Resolutions so far, the last one that succeeded, and the checks that passed for the key. -/
structure Progress where
  resolutions : Nat
  current : Option (String × ResolvedModel)
  consumed : List String
  userPassed : Bool
  teamPassed : Bool

/-- What a provider answered. -/
inductive Served where
  | whole (response : ProviderResponse) (usage : UsageReport)
  | stream (events : EventStream)

/-- What a run has admitted, answered and logged so far. -/
structure Ledger where
  progress : Progress
  answers : List (ResolvedModel × Served)
  logs : List RequestLogEntry

/-- Before the first step; a key without a team has nothing to pass there. -/
def Ledger.start (apiKey : ApiKey) : Ledger :=
  ⟨⟨0, none, [], false, apiKey.teamId.isNone⟩, [], []⟩

/-- A resolution. -/
def Progress.resolve (p : Progress) (modelRef : String) :
    Except PasteurError ResolvedModel → Progress
  | .ok resolved =>
    { p with resolutions := p.resolutions + 1, current := some (modelRef, resolved) }
  | .error _ => { p with resolutions := p.resolutions + 1 }

/-- A row has served. -/
def Ledger.answer (s : Ledger) (resolved : ResolvedModel) (served : Served) : Ledger :=
  { s with answers := s.answers ++ [(resolved, served)] }

/-- An answer of an adapter that returns whole responses. -/
def Ledger.wholeAnswer (s : Ledger) (resolved : ResolvedModel) :
    Except ProviderError (ProviderResponse × UsageReport) → Ledger
  | .ok (response, usage) => s.answer resolved (.whole response usage)
  | .error _ => s

/-- A row has served a stream, unless the call failed. -/
def Ledger.streamAnswer (s : Ledger) (resolved : ResolvedModel) :
    Except ProviderError EventStream → Ledger
  | .ok events => s.answer resolved (.stream events)
  | .error _ => s

/-- A call of the rate limiter. -/
def Progress.consume (p : Progress) (apiKey : ApiKey) (request : LimitRequest) :
    LimitResult → Progress
  | .ok () =>
    if request.apiKeyId = apiKey.id then { p with consumed := request.model :: p.consumed } else p
  | .error _ => p

/-- The budget of the user was checked; it counts when it is the user of the key. -/
def Progress.passUser (p : Progress) (apiKey : ApiKey) (userId orgId : Uuid) :
    Except ApiError Unit → Progress
  | .ok () =>
    if userId = apiKey.userId ∧ orgId = apiKey.organizationId then { p with userPassed := true } else p
  | .error _ => p

/-- The budget of a team was checked; it counts when it is the team of the key. -/
def Progress.passTeam (p : Progress) (apiKey : ApiKey) (teamId : Uuid) :
    Except ApiError Unit → Progress
  | .ok () => if some teamId = apiKey.teamId then { p with teamPassed := true } else p
  | .error _ => p

/-- One step of a request of the key. -/
def Ledger.next (apiKey : ApiKey) (s : Ledger) : Step Gateway → Ledger
  | ⟨.resolve modelRef _, answer⟩ => { s with progress := s.progress.resolve modelRef answer }
  | ⟨.checkAndConsume request, answer⟩ =>
    { s with progress := s.progress.consume apiKey request answer }
  | ⟨.checkEndUserBudget userId orgId, answer⟩ =>
    { s with progress := s.progress.passUser apiKey userId orgId answer }
  | ⟨.checkTeamBudget teamId, answer⟩ =>
    { s with progress := s.progress.passTeam apiKey teamId answer }
  | ⟨.adapter resolved _, answer⟩ => s.wholeAnswer resolved answer
  | ⟨.timedAdapter _ _, none⟩ => s
  | ⟨.timedAdapter resolved _, some answer⟩ => s.wholeAnswer resolved answer
  | ⟨.adapterStream resolved _, answer⟩ => s.streamAnswer resolved answer
  | ⟨.spawnRequestLog log, _⟩ => { s with logs := s.logs ++ [log] }
  | _ => s

/-- The model that an operation calls a provider for. -/
def GatewayOp.providerCall : GatewayOp → Option ResolvedModel
  | .adapter resolved _ => some resolved
  | .timedAdapter resolved _ => some resolved
  | .adapterStream resolved _ => some resolved
  | .passthrough resolved _ _ _ => some resolved
  | _ => none

/-- For which models a provider may be called, given how far the request has got. -/
abbrev Rule := Progress → ResolvedModel → Prop

/-- The monitor of a rule. -/
abbrev ledgerMonitor (apiKey : ApiKey) (rule : Rule) : Monitor Gateway where
  State := Ledger
  next := Ledger.next apiKey
  accepts s step := ∀ resolved, step.op.providerCall = some resolved → rule s.progress resolved

/-- Every provider call of the run keeps the rule. -/
def Keeps (apiKey : ApiKey) (rule : Rule) (tr : Trace) : Prop :=
  (ledgerMonitor apiKey rule).Safe (Ledger.start apiKey) tr

/-- The ledger at the end of a run. -/
def ledgerOf (apiKey : ApiKey) (tr : Trace) : Ledger := tr.foldl (Ledger.next apiKey) (.start apiKey)

end Godwit
