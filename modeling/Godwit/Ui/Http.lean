import Mathlib.Tactic.Common

set_option autoImplicit false

/-! # Calls of the UI (`apps/ui/src/lib/http.ts`)

A call of `apiFetch` runs from one `await` to the next without an interruption, and what it awaits settles at any
time: the state holds the shared promise, the promises that it has been, and where each call stands. -/

namespace Godwit.Ui

/-! ## Requests -/

/-- The options of a fetch. -/
structure RequestInit where
  method : Option String
  headers : List (String × String)
  body : Option String
  credentials : Option String
  deriving DecidableEq, Repr

/-- A fetch. -/
structure FetchRequest where
  path : String
  init : RequestInit
  deriving DecidableEq, Repr

/-- Its response. -/
structure FetchResponse where
  status : Nat
  body : String
  deriving DecidableEq, Repr

/-- `Response.ok`. -/
def FetchResponse.ok (r : FetchResponse) : Bool := 200 ≤ r.status && r.status < 300

/-- How a promise of `fetch` settles: with a response, or with the error of the transport. -/
abbrev Fetched := Except String FetchResponse

/-- How a call of `apiFetch` ends. -/
inductive ApiOutcome where
  | response (r : FetchResponse)
  | networkError (msg : String)
  | unauthorizedError
  deriving DecidableEq, Repr

/-! ## Promises and calls -/

/-- The promise `doRefresh().finally(..)`: the request `POST /api/v1/auth/refresh` is out, `doRefresh` has returned and
    the callback is due, or the callback has run. -/
inductive RefreshPromise where
  | sent
  | returned (ok : Bool)
  | settled (ok : Bool)
  deriving DecidableEq, Repr

/-- What a call of `apiFetch` awaits. -/
inductive ApiFetchPhase where
  | fetching
  | refreshing (promise : Nat)
  | retrying
  | done (outcome : ApiOutcome)
  deriving DecidableEq, Repr

/-- A call, with the requests that it has issued itself. -/
structure ApiFetchCall where
  request : FetchRequest
  issued : List FetchRequest
  phase : ApiFetchPhase
  deriving DecidableEq, Repr

/-- The module: the shared promise, all promises that it has been, and all calls. -/
structure HttpClient where
  refreshPromise : Option Nat
  refreshes : List RefreshPromise
  calls : List ApiFetchCall
  deriving DecidableEq, Repr

/-- Before the first call. -/
def HttpClient.new : HttpClient := ⟨none, [], []⟩

/-! ## The code between two awaits -/

/-- `doRefresh` from the settled fetch on: what it returns. -/
def doRefreshResult : Fetched → Bool
  | .ok r => r.ok
  | .error _ => false

/-- `apiFetch` up to its first `await`. -/
def apiFetch (path : String) (init : RequestInit) : ApiFetchCall :=
  let request := ⟨path, { init with credentials := some "include" }⟩
  ⟨request, [request], .fetching⟩

/-- How the promise of a `fetch` that is returned ends the call. -/
def ApiOutcome.ofFetched : Fetched → ApiOutcome
  | .ok r => .response r
  | .error msg => .networkError msg

namespace HttpClient

variable (s : HttpClient)

/-- The shared promise, made by a new `doRefresh` if there is none. -/
def sharedRefresh : Nat × HttpClient :=
  match s.refreshPromise with
  | some promise => (promise, s)
  | none => (s.refreshes.length,
      { s with refreshPromise := some s.refreshes.length, refreshes := s.refreshes ++ [.sent] })

/-- The same page with a call in its next phase. -/
def setCall (i : Nat) (call : ApiFetchCall) : HttpClient := { s with calls := s.calls.set i call }

/-- A call goes on when its first fetch has settled. -/
def afterFetch (i : Nat) (call : ApiFetchCall) : Fetched → HttpClient
  | .error msg => s.setCall i { call with phase := .done (.networkError msg) }
  | .ok r =>
    if r.status ≠ 401 then s.setCall i { call with phase := .done (.response r) }
    else
      let (promise, s) := s.sharedRefresh
      s.setCall i { call with phase := .refreshing promise }

/-- A call goes on when the refresh that it awaits has settled. -/
def afterRefresh (i : Nat) (call : ApiFetchCall) (ok : Bool) : HttpClient :=
  if !ok then s.setCall i { call with phase := .done .unauthorizedError }
  else s.setCall i { call with issued := call.issued ++ [call.request], phase := .retrying }

end HttpClient

/-! ## Runs -/

/-- What may happen next on the page. -/
inductive HttpEvent where
  | apiFetch (path : String) (init : RequestInit)
  /-- The fetch that a call awaits has settled. -/
  | fetched (call : Nat) (result : Fetched)
  /-- The fetch of a refresh has settled, and `doRefresh` returns. -/
  | refreshFetched (refresh : Nat) (result : Fetched)
  /-- The callback of `finally`. -/
  | refreshFinally (refresh : Nat)
  /-- A call goes on after the refresh that it awaits. -/
  | refreshed (call : Nat)
  deriving DecidableEq, Repr

namespace HttpClient

/-- What the event does, where it can happen. -/
def step (s : HttpClient) : HttpEvent → Option HttpClient
  | .apiFetch path init => some { s with calls := s.calls ++ [Ui.apiFetch path init] }
  | .fetched i result => do
    let call ← s.calls[i]?
    match call.phase with
    | .fetching => some (s.afterFetch i call result)
    | .retrying => some (s.setCall i { call with phase := .done (.ofFetched result) })
    | _ => none
  | .refreshFetched j result => do
    match ← s.refreshes[j]? with
    | .sent => some { s with refreshes := s.refreshes.set j (.returned (doRefreshResult result)) }
    | _ => none
  | .refreshFinally j => do
    match ← s.refreshes[j]? with
    | .returned ok => some { s with refreshPromise := none, refreshes := s.refreshes.set j (.settled ok) }
    | _ => none
  | .refreshed i => do
    let call ← s.calls[i]?
    match call.phase with
    | .refreshing promise =>
      match ← s.refreshes[promise]? with
      | .settled ok => some (s.afterRefresh i call ok)
      | _ => none
    | _ => none

/-- The page after the events, if each of them can happen. -/
def run (s : HttpClient) : List HttpEvent → Option HttpClient
  | [] => some s
  | e :: rest => (s.step e).bind fun s => s.run rest

/-- The requests of `doRefresh` that have no response yet. -/
def refreshesInFlight (s : HttpClient) : Nat := s.refreshes.count .sent

end HttpClient

end Godwit.Ui
