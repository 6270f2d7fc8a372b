import Godwit.Admin.ApiKeys
import Godwit.Api.Router
import Godwit.Lib.Joint

set_option autoImplicit false

/-! # The way of a chat request (`app.rs`, `middleware.rs`)

A request to `/v1/chat/completions` goes through `api_key_auth` and `model_scope` to its handler. -/

namespace Godwit

/-- The key store, and what the handlers use. -/
abbrev KeyedGateway : Signature := KeyStore.sum Gateway

/-- How a request ends without a response of its handler. -/
inductive PathFault where
  | auth (e : AuthFault)
  | handler (e : Fault)
  deriving DecidableEq, Repr

/-- The value of a header, every byte for a character: only ASCII is read any further. -/
def headerString (bytes : Bytes) : String := String.ofList (bytes.map fun b => Char.ofNat b.toNat)

/-- The path of a chat request with these headers and this body. -/
def chatPath (state : AppState) (argon2 : Argon2) (authorization : Option Bytes) (tags : Option String)
    (body : Bytes) : Program KeyedGateway PathFault Response := do
  let key ← ((apiKeyAuth argon2 (authorization.map headerString)).mapError .auth).embed .left
  ((serveProxy state key.toApiKey (.chat tags body)).mapError .handler).embed .right

end Godwit
