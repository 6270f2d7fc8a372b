import Godwit.Lib.Text
import Godwit.Mcp.JsonRpc

set_option autoImplicit false

/-! # The client of a tool server (`godwit-mcp/src/client.rs`)

A client writes requests to a server and reads the lines that come back, one call at a time. The connection is a
state machine: the client with the call that waits, the requests that the server has not answered and the lines
on their way. A caller may drop a call while it waits (`abandon`). -/

namespace Godwit

/-- Why a call of a server fails. -/
inductive McpClientError where
  | spawn (name : String)
  | frame (error : FrameError)
  | remote (method : String) (code : Int64) (message : String)
  | unexpectedResponseId (expected actual : Int64)
  | emptyToolResult (name : String)

/-! ## What a call makes of a line -/

section Lines

variable (serde : RpcSerde)

/-- A line of `initialize_handshake`: nothing yet, or how it ends. The id of a response is not looked at. -/
def initializeLine (line : String) : Option (Except McpClientError Unit) :=
  match RpcMessage.fromFrame serde (utf8Bytes line) with
  | .error e => some (.error (.frame e))
  | .ok (.response (.result _ _)) => some (.ok ())
  | .ok (.response (.error _ e)) => some (.error (.remote "initialize" e.code e.message))
  | .ok _ => none

/-- A line of `request`: nothing yet, or what it returns. The id of a result is compared, that of an error is
    not. -/
def requestLine (id : Int64) (method line : String) : Option (Except McpClientError Json) :=
  match RpcMessage.fromFrame serde (utf8Bytes line) with
  | .error e => some (.error (.frame e))
  | .ok (.response (.result rid value)) =>
    if rid ≠ id then some (.error (.unexpectedResponseId id rid)) else some (.ok value)
  | .ok (.response (.error _ e)) => some (.error (.remote method e.code e.message))
  | .ok _ => none

/-! ## A connection -/

/-- What the client does. -/
inductive ClientPhase where
  | fresh
  | handshake (id : Int64)
  | ready
  | waiting (id : Int64) (method : String) (number abandonedBefore : Nat)
  | gone

/-- A call that returned: its place among the requests of the connection, and how many calls were abandoned
    before it was made. -/
structure FinishedCall where
  id : Int64
  method : String
  number : Nat
  abandonedBefore : Nat
  outcome : Except McpClientError Json

/-- The client, the requests that the server has to answer, the lines that it wrote, and what happened so far:
    how many requests were made and how many calls abandoned, the answers and the calls that returned. -/
structure McpSession where
  nextId : Int64
  phase : ClientPhase
  unanswered : List RpcRequest
  pipe : List String
  requested : Nat
  abandoned : Nat
  answers : List RpcResponse
  finished : List FinishedCall

/-- Before the handshake. -/
def McpSession.new : McpSession := ⟨1, .fresh, [], [], 0, 0, [], []⟩

/-- What may happen next on either side. -/
inductive McpEvent where
  /-- The client starts the handshake. -/
  | connect (params : Json)
  /-- A call writes its request. -/
  | call (method : String) (params : Option Json)
  /-- The server writes a line. -/
  | write (line : String)
  /-- The client takes a line from the pipe. -/
  | read
  /-- The future of a call is dropped. The beginning of a line that it had taken is lost. -/
  | abandon (lost : Nat)

/-- Write a request with the next id. -/
def McpSession.writeRequest (s : McpSession) (phase : ClientPhase) (method : String) (params : Option Json) :
    McpSession :=
  { s with
    nextId := s.nextId + 1
    phase := phase
    unanswered := s.unanswered ++ [⟨s.nextId, method, params⟩]
    requested := s.requested + 1 }

/-- A line of the server: a blank one, a message of its own, or the answer to the first request that it has not
    answered, with the id of this request. -/
def McpSession.write (s : McpSession) (line : String) : Option McpSession :=
  let trimmed := trimText line
  if trimmed = "" then some { s with pipe := s.pipe ++ [line] }
  else
    match RpcMessage.fromFrame serde (utf8Bytes trimmed), s.unanswered with
    | .ok (.response answer), request :: later =>
      if answer.id = request.id then
        some { s with pipe := s.pipe ++ [line], unanswered := later, answers := s.answers ++ [answer] }
      else none
    | .ok (.response _), [] => none
    | .ok _, _ => some { s with pipe := s.pipe ++ [line] }
    | .error _, _ => none

/-- The loops that wait for a response: `read_frame` skips blank lines, and messages of the server are ignored. -/
def McpSession.read (s : McpSession) : Option McpSession :=
  match s.pipe with
  | [] => none
  | line :: pipe =>
    let trimmed := trimText line
    match s.phase with
    | .handshake _ =>
      if trimmed = "" then some { s with pipe := pipe }
      else
        match initializeLine serde trimmed with
        | none => some { s with pipe := pipe }
        | some (.ok ()) => some { s with pipe := pipe, phase := .ready }
        | some (.error _) => some { s with pipe := pipe, phase := .gone }
    | .waiting id method number abandonedBefore =>
      if trimmed = "" then some { s with pipe := pipe }
      else
        match requestLine serde id method trimmed with
        | none => some { s with pipe := pipe }
        | some outcome =>
          some { s with
            pipe := pipe
            phase := .ready
            finished := s.finished ++ [⟨id, method, number, abandonedBefore, outcome⟩] }
    | _ => none

/-- A client that was dropped in its handshake is gone, one that was dropped in a call is used again. -/
def McpSession.abandon (s : McpSession) (lost : Nat) : Option McpSession :=
  let pipe := s.pipe.modifyHead fun line => String.ofList (line.toList.drop lost)
  match s.phase with
  | .handshake _ => some { s with pipe := pipe, phase := .gone }
  | .waiting _ _ _ _ => some { s with pipe := pipe, phase := .ready, abandoned := s.abandoned + 1 }
  | _ => none

/-- The session after an event, if it can happen. -/
def McpSession.step (s : McpSession) : McpEvent → Option McpSession
  | .connect params =>
    match s.phase with
    | .fresh => some (s.writeRequest (.handshake s.nextId) "initialize" (some params))
    | _ => none
  | .call method params =>
    match s.phase with
    | .ready => some (s.writeRequest (.waiting s.nextId method s.requested s.abandoned) method params)
    | _ => none
  | .write line => s.write serde line
  | .read => s.read serde
  | .abandon lost => s.abandon lost

/-- The session after the events, if each of them can happen. -/
def McpSession.run (s : McpSession) : List McpEvent → Option McpSession
  | [] => some s
  | event :: events => (s.step serde event).bind fun s => s.run events

end Lines

end Godwit
