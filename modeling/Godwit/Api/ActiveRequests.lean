import Mathlib.Logic.Function.Basic
import Godwit.Api.Chat

set_option autoImplicit false

/-! # The gauge of active requests (`chat_completions` of `proxy.rs`, `metrics.rs`)

All requests share `ACTIVE_REQUESTS`, and the handler changes it by hand. The runtime runs a handler from one await
point to the next, next to the others. It drops the future of a client that disconnects, at an await point, and of a
handler that panics. -/

namespace Godwit

/-! ## Metrics -/

/-- `ACTIVE_REQUESTS`: a number for each model and provider. -/
abbrev ActiveGauge := String × String → Int

/-- The label that `increment_active` is called for. -/
def GatewayOp.increment : GatewayOp → Option (String × String)
  | .metrics (.incrementActive model provider) => some (model, provider)
  | _ => none

/-- The label that `decrement_active` is called for. -/
def GatewayOp.decrement : GatewayOp → Option (String × String)
  | .metrics (.decrementActive model provider) => some (model, provider)
  | _ => none

/-- What an operation does to the gauge. -/
def ActiveGauge.perform (gauge : ActiveGauge) : GatewayOp → ActiveGauge
  | .metrics (.incrementActive model provider) =>
    Function.update gauge (model, provider) (gauge (model, provider) + 1)
  | .metrics (.decrementActive model provider) =>
    Function.update gauge (model, provider) (gauge (model, provider) - 1)
  | _ => gauge

/-- The handler awaits the operation; the others return at once. -/
def GatewayOp.awaits : GatewayOp → Bool
  | .newUuid => false
  | .elapsed => false
  | .unixTime => false
  | .recordLatency _ _ => false
  | .metrics _ => false
  | .spawnRequestLog _ => false
  | _ => true

/-! ## One request -/

/-- A request: what its handler has done, what is left of it, and whether its future was cancelled. -/
structure ActiveCall where
  done : Trace
  left : App Fault Response
  cancelled : Bool

namespace ActiveCall

variable (call : ActiveCall)

/-- A request that has arrived and done nothing yet. -/
def new (state : AppState) (apiKey : ApiKey) (tagsHeader : Option String) (body : Bytes) : ActiveCall :=
  ⟨[], chatCompletions state apiKey tagsHeader body, false⟩

/-- The handler is at an await point. (At the first it reads the body.) -/
def awaits : Bool :=
  call.done.isEmpty || match call.left with
    | .op o _ => o.awaits
    | _ => false

/-- The handler has answered. -/
def returned : Bool :=
  match call.left with
  | .pure _ => true
  | .throw (.api _) => true
  | _ => false

/-- The handler has panicked. -/
def panicked : Bool :=
  match call.left with
  | .throw .panic => true
  | _ => false

/-- The future is gone without a result. -/
def dropped : Bool := call.cancelled || call.panicked

/-- The handler has neither returned nor been dropped. -/
def live : Bool := !call.returned && !call.dropped

/-- The label of the increment that the request has passed. -/
def label : Option (String × String) := call.done.findSome? fun step => step.op.increment

/-- The handler has taken the request out of the gauge. -/
def decremented : Bool := call.done.any fun step => step.op.decrement.isSome

/-- The request is between its increment and its decrement. -/
def inside : Bool := call.label.isSome && !call.decremented

/-- The request has passed its increment with this label, and its handler is live. -/
def active (label : String × String) : Bool := decide (call.label = some label) && call.live

/-- The future went away between the increment and the decrement. -/
def lost : Bool := call.dropped && call.inside

/-- The next operation, with the answer that it gets. -/
def advance (answers : (o : GatewayOp) → o.Answer) : Option (Step Gateway × ActiveCall) :=
  match call.left with
  | .op o k =>
    if call.cancelled then none
    else some (⟨o, answers o⟩, ⟨call.done ++ [⟨o, answers o⟩], k (answers o), false⟩)
  | _ => none

end ActiveCall

/-! ## All requests -/

/-- The gauge, and every request so far. -/
structure ActiveRequests where
  gauge : ActiveGauge
  calls : List ActiveCall

/-- What happens next: a request arrives, a handler performs its next operation, a client disconnects. -/
inductive ActiveEvent where
  | arrive (state : AppState) (apiKey : ApiKey) (tagsHeader : Option String) (body : Bytes)
  | perform (i : Nat) (answers : (o : GatewayOp) → o.Answer)
  | cancel (i : Nat)

namespace ActiveRequests

/-- Before the first request. -/
def new : ActiveRequests := ⟨fun _ => 0, []⟩

/-- A request arrives, takes its next step or is dropped by its client. -/
def step (s : ActiveRequests) : ActiveEvent → ActiveRequests
  | .arrive state apiKey tagsHeader body =>
    { s with calls := s.calls ++ [.new state apiKey tagsHeader body] }
  | .perform i answers =>
    match s.calls[i]?.bind fun call => call.advance answers with
    | none => s
    | some (step, call) => ⟨s.gauge.perform step.op, s.calls.set i call⟩
  | .cancel i =>
    match s.calls[i]?.filter fun call => call.awaits && call.live with
    | none => s
    | some call => { s with calls := s.calls.set i { call with cancelled := true } }

/-- The state after the events. -/
def run (events : List ActiveEvent) : ActiveRequests := events.foldl step new

/-- The event drops a future between the increment and the decrement: a client disconnects there, or the handler
    panics there. -/
def Loses (s : ActiveRequests) : ActiveEvent → Prop
  | .arrive _ _ _ _ => False
  | .perform i answers => ∃ call ∈ s.calls[i]?, ∃ moved ∈ call.advance answers, moved.2.lost
  | .cancel i => ∃ call ∈ s.calls[i]?, call.awaits ∧ call.live ∧ call.inside

/-- Every handler is at an await point or has ended. -/
def AtRest (s : ActiveRequests) : Prop := ∀ call ∈ s.calls, call.live → call.awaits

/-- The gauge is the number of requests that are in. -/
structure Balanced (s : ActiveRequests) : Prop where
  /-- In the middle of a poll a handler can be on its way out: it returns with no further await. -/
  polled : ∀ label, s.gauge label = s.calls.countP fun call => call.active label && !call.decremented
  atRest : s.AtRest → ∀ label, s.gauge label = s.calls.countP fun call => call.active label
  ended : (∀ call ∈ s.calls, ¬ call.live) → ∀ label, s.gauge label = 0

end ActiveRequests

end Godwit
