import Godwit.Api.Gateway

set_option autoImplicit false

/-! # Admission of a request (`rate_limit.rs`, and the checks of `proxy.rs`) -/

namespace Godwit

/-- The bytes that a part counts for. -/
def ChatContentPart.len : ChatContentPart → Nat
  | .text t => t.utf8ByteSize
  | .imageUrl url _ => url.utf8ByteSize

/-- `ChatContent::len`: bytes, not characters. -/
def ChatContent.len : ChatContent → Nat
  | .text t => t.utf8ByteSize
  | .parts items => (items.map ChatContentPart.len).sum

/-- `estimate_request_tokens`, a `u32`: a quarter of the bytes plus the requested maximum. -/
def estimateRequestTokens (req : ChatCompletionRequest) : Nat :=
  let bytes := req.messages.map fun m =>
    (m.content.elim 0 fun items => (items.map ChatContent.len).sum) + m.role.utf8ByteSize
  let total := bytes.sum / 4 + req.maxTokens.elim 0 fun n => n.toInt.toNat
  max total 1 % 2 ^ 32

/-- The arguments of the rate limiter for a key, its organization and a model. -/
def limitRequest (apiKey : ApiKey) (org : Organization) (publicId : String)
    (estimatedTokens : Nat) : LimitRequest where
  apiKeyId := apiKey.id
  orgId := apiKey.organizationId
  model := publicId
  rpmLimitKey := apiKey.rateLimitRequestsPerMinute.map Int32.toInt
  tpmLimitKey := apiKey.rateLimitTokensPerMinute.map Int32.toInt
  rpmLimitOrg := org.rateLimitRequestsPerMinute.map Int32.toInt
  tpmLimitOrg := org.rateLimitTokensPerMinute.map Int32.toInt
  estimatedTokens := estimatedTokens

/-- The call of the rate limiter, which `proxy.rs` and `anthropic_proxy.rs` both write out. -/
def consumeLimit (apiKey : ApiKey) (org : Organization) (model : Model) (estimatedTokens : Nat) :
    App ApiError Unit := do
  match ← ask (.checkAndConsume (limitRequest apiKey org model.publicId estimatedTokens)) with
  | .ok () => pure ()
  | .error (_, retryAfter) => Program.throw (.rateLimited retryAfter)

/-- The two limits of the key and its organization, for the estimated tokens. -/
def checkRateLimit (apiKey : ApiKey) (model : Model) (estimatedTokens : Nat) : App ApiError Unit := do
  let org ← orThrow ApiError.core (← ask (.getOrganization apiKey.organizationId))
  consumeLimit apiKey org model estimatedTokens

/-- The budget of the key's user. -/
def checkUserBudget (apiKey : ApiKey) : App ApiError Unit := do
  Program.ofExcept (← ask (.checkEndUserBudget apiKey.userId apiKey.organizationId))

/-- The budget of the key's team, if it has one. -/
def checkTeamBudget (apiKey : ApiKey) : App ApiError Unit :=
  match apiKey.teamId with
  | some teamId => do Program.ofExcept (← ask (.checkTeamBudget teamId))
  | none => pure ()

/-- The three checks in the order in which every endpoint of `proxy.rs` makes them. -/
def checkAdmission (apiKey : ApiKey) (model : Model) (estimatedTokens : Nat) : App ApiError Unit := do
  checkRateLimit apiKey model estimatedTokens
  checkUserBudget apiKey
  checkTeamBudget apiKey

end Godwit
