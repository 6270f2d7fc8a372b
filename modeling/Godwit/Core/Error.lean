set_option autoImplicit false

/-! # Identifiers and the core error type

`Uuid` is the 128-bit value itself; the model only compares identifiers and tests for the nil one.
`PasteurError` is the error type of `godwit-core`, with the texts its `Display` implementation
prints, because the chat fallback inspects the printed text of an error. -/

namespace Godwit

/-- `uuid::Uuid`, compared by value. -/
abbrev Uuid := BitVec 128

/-- `Uuid::nil()`. -/
def Uuid.nil : Uuid := 0

/-- The errors of `godwit-core`. -/
inductive PasteurError where
  | config (msg : String)
  | auth (msg : String)
  | forbidden (msg : String)
  | notFound
  | provider (msg : String)
  | database (msg : String)
  | validation (msg : String)
  | rateLimited
  deriving DecidableEq, Repr

/-- The `thiserror` texts. -/
def PasteurError.toText : PasteurError → String
  | .config msg => "configuration error: " ++ msg
  | .auth msg => "authentication error: " ++ msg
  | .forbidden msg => "authorization error: " ++ msg
  | .notFound => "not found"
  | .provider msg => "provider error: " ++ msg
  | .database msg => "database error: " ++ msg
  | .validation msg => "validation error: " ++ msg
  | .rateLimited => "rate limited"

end Godwit
