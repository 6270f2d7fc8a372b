import Godwit.Lib.Json

set_option autoImplicit false

/-! # The socket of the live metrics (`apps/ui/src/lib/websocket.ts`)

The fields of `MetricsSocket`, and what the browser holds for it: the sockets that it has created and the timers
that are pending. Handlers, timers and the methods run one at a time, in any order. -/

namespace Godwit.Ui

/-! ## What the browser holds -/

/-- `WebSocket.readyState`. -/
inductive ReadyState where
  | connecting
  | open
  | closing
  | closed
  deriving DecidableEq, Repr

/-- A `WebSocket`: which of its handlers that can be removed are there, whether `close` was called on it, and whether
    a close or error event was delivered. The handlers of open and message events stay. -/
structure WebSocket where
  readyState : ReadyState
  onclose : Bool
  onerror : Bool
  closeCalled : Bool
  ended : Bool
  sent : List String
  deriving DecidableEq, Repr

/-- A socket with its handlers. -/
def WebSocket.new : WebSocket := ⟨.connecting, true, true, false, false, []⟩

/-- `WebSocket.close`. -/
def WebSocket.close (ws : WebSocket) : WebSocket :=
  { ws with
    readyState := if ws.readyState = .closed then .closed else .closing
    closeCalled := true }

/-- The socket at an open event of it. -/
def WebSocket.setOpen (ws : WebSocket) : WebSocket := { ws with readyState := .open }

/-- The socket at a close or error event of it. -/
def WebSocket.setEnded (ws : WebSocket) : WebSocket := { ws with readyState := .closed, ended := true }

/-- Created, and neither closed nor ended. -/
def WebSocket.live (ws : WebSocket) : Bool := !ws.closeCalled && !ws.ended

/-- The functions that are given to `setTimeout`. -/
inductive TimerCallback where
  | connectTimeout
  | reconnect
  deriving DecidableEq, Repr

/-- A timer that is running. -/
structure Timer where
  id : Nat
  callback : TimerCallback
  delay : Nat
  deriving DecidableEq, Repr

/-! ## The class -/

/-- `RETRY_DELAYS`, in milliseconds. -/
def retryDelays : List Nat := [2000, 5000, 10000]

/-- What the page shows of the connection. -/
inductive MetricsSocketStatus where
  | connecting
  | open
  | failed
  deriving DecidableEq, Repr

/-- What a listener is given; the socket does not look into it. -/
abbrev MetricsUpdate := Json

/-- What the message handler reads of a parsed message; `data` is there where it is truthy. -/
structure IncomingMessage where
  type : String
  data : Option MetricsUpdate
  deriving Repr

/-- The fields. A socket and a timer are named by their number. -/
structure MetricsSocket where
  ws : Option Nat
  listeners : List Nat
  retryCount : Nat
  reconnectTimer : Option Nat
  connectTimer : Option Nat
  closed : Bool
  status : MetricsSocketStatus
  deriving DecidableEq, Repr

/-- A `MetricsSocket` in its page: the sockets it has created, the pending timers, the number of the next one, the
    updates that the listeners were given, and how often `onWsfailed` was called. -/
structure MetricsPage extends MetricsSocket where
  sockets : List WebSocket
  timers : List Timer
  nextTimer : Nat
  dispatched : List (Nat × MetricsUpdate)
  failures : Nat

/-- Before the first connection. -/
def MetricsPage.new : MetricsPage where
  ws := none
  listeners := []
  retryCount := 0
  reconnectTimer := none
  connectTimer := none
  closed := false
  status := .connecting
  sockets := []
  timers := []
  nextTimer := 0
  dispatched := []
  failures := 0

namespace MetricsPage

variable (p : MetricsPage)

/-- The page once a timer is set; its number is `nextTimer` of the page before. -/
def setTimeout (callback : TimerCallback) (delay : Nat) : MetricsPage :=
  { p with timers := p.timers ++ [⟨p.nextTimer, callback, delay⟩], nextTimer := p.nextTimer + 1 }

/-- `clearTimeout`. -/
def clearTimeout (timer : Option Nat) : MetricsPage := { p with timers := p.timers.filter (some ·.id ≠ timer) }

/-- `openSocket`: a socket and the timer that gives it five seconds. -/
def openSocket : MetricsPage :=
  if p.closed then p
  else
    let p := { p with status := .connecting, ws := some p.sockets.length, sockets := p.sockets ++ [WebSocket.new] }
    { p.setTimeout .connectTimeout 5000 with connectTimer := some p.nextTimer }

/-- `connect`. -/
def connect : MetricsPage := { p with closed := false, retryCount := 0 }.openSocket

/-- The handlers of the current socket are removed, and it is closed. -/
def detach : MetricsPage :=
  match p.ws with
  | some i =>
    { p with sockets := p.sockets.modify i fun ws => { ws with onclose := false, onerror := false }.close }
  | none => p

/-- `handleFailure`: the next delay, until there is none. -/
def handleFailure : MetricsPage :=
  if p.closed then p
  else
    let p := (p.clearTimeout p.connectTimer).detach
    match retryDelays[p.retryCount]? with
    | some delay =>
      let p := { p with retryCount := p.retryCount + 1, status := .connecting }
      { p.setTimeout .reconnect delay with reconnectTimer := some p.nextTimer }
    | none => { p with status := .failed, failures := p.failures + 1 }

/-- A message goes out if the current socket is open. -/
def send (message : String) : MetricsPage :=
  match p.ws with
  | some i =>
    { p with
      sockets := p.sockets.modify i fun ws =>
        if ws.readyState = .open then { ws with sent := ws.sent ++ [message] } else ws }
  | none => p

/-- The message that asks for the metrics. -/
def subscribeMessage : String := "\x7b\"type\":\"subscribe\",\"channel\":\"metrics\"\x7d"

/-- The `open` handler. -/
def onopen : MetricsPage :=
  { p.clearTimeout p.connectTimer with status := .open, retryCount := 0 }.send subscribeMessage

/-- Every listener is told. -/
def dispatch (update : MetricsUpdate) : MetricsPage :=
  { p with dispatched := p.dispatched ++ p.listeners.map (·, update) }

/-- A message that is not JSON, or is null, is ignored. -/
def onmessage : Option IncomingMessage → MetricsPage
  | some msg =>
    match msg.data with
    | some update => if msg.type = "metrics:update" then p.dispatch update else p
    | none => p
  | none => p

/-- A listener is added to the set. -/
def subscribe (listener : Nat) : MetricsPage :=
  if listener ∈ p.listeners then p else { p with listeners := p.listeners ++ [listener] }

/-- A listener is removed from the set. -/
def unsubscribe (listener : Nat) : MetricsPage := { p with listeners := p.listeners.filter (· ≠ listener) }

/-- `close`: the timers and the socket are let go of. -/
def close : MetricsPage :=
  let p := { p with closed := true }
  let p := ((p.clearTimeout p.connectTimer).clearTimeout p.reconnectTimer).detach
  { p with ws := none, listeners := [] }

end MetricsPage

/-! ## Runs -/

/-- What may happen next on the page. -/
inductive MetricsEvent where
  | connect
  | close
  | subscribe (listener : Nat)
  | unsubscribe (listener : Nat)
  /-- The browser delivers an event of a socket. -/
  | opened (socket : Nat)
  | message (socket : Nat) (data : Option IncomingMessage)
  | errored (socket : Nat)
  | ended (socket : Nat)
  /-- A pending timer fires. -/
  | timer (t : Timer)

/-- The page, and whether `connect` may be called: at first, once the status has become `failed`, and after `close`. -/
structure MetricsRun where
  page : MetricsPage
  mayConnect : Bool

/-- Before the first event. -/
def MetricsRun.new : MetricsRun := ⟨.new, true⟩

namespace MetricsPage

variable (p : MetricsPage)

/-- The browser delivers an event of a socket: the socket changes first. -/
def deliver (i : Nat) (f : WebSocket → WebSocket) : MetricsPage := { p with sockets := p.sockets.modify i f }

/-- A pending timer fires. -/
def fire (t : Timer) : MetricsPage :=
  let p := { p with timers := p.timers.erase t }
  match t.callback with
  | .connectTimeout => p.handleFailure
  | .reconnect => p.openSocket

end MetricsPage

namespace MetricsRun

variable (r : MetricsRun)

/-- The run goes on; `connect` may be called if the status has become `failed`. -/
def goOn (p : MetricsPage) : MetricsRun := ⟨p, r.mayConnect || r.page.failures ≠ p.failures⟩

/-- What the event does, where it can happen. -/
def step : MetricsEvent → Option MetricsRun
  | .connect => if r.mayConnect then some ⟨r.page.connect, false⟩ else none
  | .close => some ⟨r.page.close, true⟩
  | .subscribe listener => some (r.goOn (r.page.subscribe listener))
  | .unsubscribe listener => some (r.goOn (r.page.unsubscribe listener))
  | .opened i => r.page.sockets[i]?.map fun _ => r.goOn (r.page.deliver i WebSocket.setOpen).onopen
  | .message i data => r.page.sockets[i]?.map fun _ => r.goOn (r.page.onmessage data)
  | .errored i => r.page.sockets[i]?.map fun ws =>
    let p := r.page.deliver i WebSocket.setEnded
    r.goOn (if ws.onerror then p.handleFailure else p)
  | .ended i => r.page.sockets[i]?.map fun ws =>
    let p := r.page.deliver i WebSocket.setEnded
    r.goOn (if ws.onclose then p.handleFailure else p)
  | .timer t => if t ∈ r.page.timers then some (r.goOn (r.page.fire t)) else none

/-- The page after the events, if each of them can happen. -/
def run (r : MetricsRun) : List MetricsEvent → Option MetricsRun
  | [] => some r
  | e :: rest => (r.step e).bind fun r => r.run rest

end MetricsRun

end Godwit.Ui
