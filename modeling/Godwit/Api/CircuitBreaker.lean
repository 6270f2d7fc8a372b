import Mathlib.Data.NNRat.Defs
import Mathlib.Data.Rat.Cast.Order
import Godwit.Api.RateLimit

set_option autoImplicit false

/-! # The circuit breaker (`godwit-api/src/circuit_breaker.rs`)

A breaker counts failures while it is closed, blocks calls while it is open, and lets a number of probes
through while it is half open. Only a look at its state can take it from open to half open. The counters
are 64-bit and wrap. -/

namespace Godwit

/-- The three states of a breaker. -/
inductive CircuitState where
  | closed
  | opened
  | halfOpen
  deriving DecidableEq, Repr

/-- The atomics, the locks and the configuration of a breaker. -/
structure CircuitBreaker where
  failures : BitVec 64
  successes : BitVec 64
  lastFailure : Option Instant
  state : CircuitState
  threshold : BitVec 64
  timeout : ℚ≥0
  halfOpenMax : BitVec 64
  halfOpenRequests : BitVec 64
  deriving DecidableEq

/-- `CircuitBreaker::new`: closed, with no failures. -/
def CircuitBreaker.new (threshold : BitVec 64) (timeout : ℚ≥0) (halfOpenMax : BitVec 64) :
    CircuitBreaker where
  failures := 0
  successes := 0
  lastFailure := none
  state := .closed
  threshold := threshold
  timeout := timeout
  halfOpenMax := halfOpenMax
  halfOpenRequests := 0

/-- `last.elapsed() >= self.timeout`, at a reading of the clock. -/
def CircuitBreaker.timedOut (cb : CircuitBreaker) (last now : Instant) : Bool :=
  decide ((cb.timeout : ℚ) ≤ durationSince now last)

/-- `state`: an open breaker is half open from now on when the timeout has passed. -/
def CircuitBreaker.stateAt (cb : CircuitBreaker) (now : Instant) : CircuitState × CircuitBreaker :=
  match cb.state, cb.lastFailure with
  | .opened, some last =>
    if cb.timedOut last now then (.halfOpen, { cb with state := .halfOpen }) else (.opened, cb)
  | current, _ => (current, cb)

/-- `can_execute`. A breaker that was found open is asked for its timeout a second time, at a reading of
    its own. -/
def CircuitBreaker.canExecute (cb : CircuitBreaker) (now later : Instant) : Bool × CircuitBreaker :=
  match cb.stateAt now with
  | (.closed, cb) => (true, cb)
  | (.opened, cb) =>
    match cb.lastFailure with
    | some last => (cb.timedOut last later, cb)
    | none => (true, cb)
  | (.halfOpen, cb) =>
    let reserved := cb.halfOpenRequests
    let cb := { cb with halfOpenRequests := reserved + 1 }
    if reserved < cb.halfOpenMax then (true, cb)
    else (false, { cb with halfOpenRequests := cb.halfOpenRequests - 1 })

/-- `record_success`: a half open breaker closes. -/
def CircuitBreaker.recordSuccess (cb : CircuitBreaker) : CircuitBreaker :=
  let cb := { cb with successes := cb.successes + 1 }
  match cb.state with
  | .halfOpen => { cb with state := .closed, failures := 0, halfOpenRequests := 0 }
  | .closed => { cb with failures := 0 }
  | .opened => cb

/-- `record_failure`: the threshold opens a closed breaker, one failure a half open one. -/
def CircuitBreaker.recordFailure (cb : CircuitBreaker) (now : Instant) : CircuitBreaker :=
  let cb := { cb with failures := cb.failures + 1, lastFailure := some now }
  match cb.state with
  | .closed => if cb.threshold ≤ cb.failures then { cb with state := .opened } else cb
  | .halfOpen => { cb with state := .opened, halfOpenRequests := 0 }
  | .opened => cb

/-! ## Calls one after another -/

/-- The methods of a breaker. -/
inductive BreakerOp where
  | state
  | canExecute
  | recordSuccess
  | recordFailure
  deriving DecidableEq, Repr

/-- A call with its readings of the clock, of which only `can_execute` makes a second one. -/
structure BreakerCall where
  op : BreakerOp
  now : Instant
  later : Instant
  deriving DecidableEq

/-- The two readings of the clock that a call may make. -/
def BreakerCall.readings (c : BreakerCall) : List Instant := [c.now, c.later]

/-- What a call returns. -/
inductive BreakerReply where
  | state (current : CircuitState)
  | admitted (answer : Bool)
  | recorded
  deriving DecidableEq, Repr

/-- One call: its answer and the breaker after it. -/
def CircuitBreaker.call (cb : CircuitBreaker) (c : BreakerCall) : BreakerReply × CircuitBreaker :=
  match c.op with
  | .state => (.state (cb.stateAt c.now).1, (cb.stateAt c.now).2)
  | .canExecute => (.admitted (cb.canExecute c.now c.later).1, (cb.canExecute c.now c.later).2)
  | .recordSuccess => (.recorded, cb.recordSuccess)
  | .recordFailure => (.recorded, cb.recordFailure c.now)

/-- The breaker after a sequence of calls. -/
def CircuitBreaker.afterCalls (cb : CircuitBreaker) (calls : List BreakerCall) : CircuitBreaker :=
  calls.foldl (fun cb c => (cb.call c).2) cb

/-- A call as it shows from outside. -/
structure BreakerStep where
  call : BreakerCall
  before : CircuitState
  reply : BreakerReply
  after : CircuitState
  deriving DecidableEq

/-- What one call shows of the breaker. -/
def CircuitBreaker.stepOf (cb : CircuitBreaker) (c : BreakerCall) : BreakerStep :=
  ⟨c, cb.state, (cb.call c).1, (cb.call c).2.state⟩

/-- The history of calls that run one after another. -/
def CircuitBreaker.run (cb : CircuitBreaker) : List BreakerCall → List BreakerStep
  | [] => []
  | c :: rest => cb.stepOf c :: (cb.call c).2.run rest

end Godwit
