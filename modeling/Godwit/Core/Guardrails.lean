import Godwit.Core.Chat
import Godwit.Core.PiiMasking
import Godwit.Lib.Text

set_option autoImplicit false

/-! # Guardrails around a chat call (`godwit-core/src/guardrails.rs`)

Before a call the texts of the request are masked and moderated, after it the completion is moderated
and unmasked. The orchestrator is used under its mutex for a whole `pre_call` or `post_call`, so each
is one step on its state. The moderation service is a function; a panic is `none`, and the masker
keeps what happened before it. -/

namespace Godwit

/-- Which guardrails are on. -/
structure GuardrailsConfig where
  piiEnabled : Bool
  moderationPre : Bool
  moderationPost : Bool
  blockOnModerationFailure : Bool
  deriving DecidableEq, Repr

/-- `GuardrailsConfig::default`: none is on. -/
def GuardrailsConfig.default : GuardrailsConfig := ⟨false, false, false, true⟩

/-- The verdict of the moderation service. -/
structure ModerationResult where
  flagged : Bool
  categories : Json
  deriving Repr

/-- Why a guardrail stops a request. -/
inductive GuardrailsError where
  | moderation (msg : String)
  | internal (msg : String)
  deriving DecidableEq, Repr

/-- Its `Display` text. -/
def GuardrailsError.toText : GuardrailsError → String
  | .moderation msg => "moderation failed: " ++ msg
  | .internal msg => "internal error: " ++ msg

/-- `PreCallResult` and `PostCallResult`. -/
inductive GuardrailsVerdict where
  | allowed
  | blocked (result : ModerationResult)
  deriving Repr

/-! ## Moderation -/

/-- The moderation request over HTTP: a verdict on a text, or how the request failed. -/
abbrev ModerationService := String → Except GuardrailsError ModerationResult

/-- `check_moderation`: a blank text is not sent. -/
def checkModeration (service : ModerationService) (text : String) :
    Except GuardrailsError ModerationResult :=
  if text.toList.all isWhitespace then .ok ⟨false, .obj []⟩ else service text

/-- The verdict of a moderated text under the configuration. -/
def GuardrailsConfig.moderate (config : GuardrailsConfig) (service : ModerationService)
    (texts : List String) : Except GuardrailsError GuardrailsVerdict :=
  match checkModeration service (" ".intercalate texts) with
  | .error e => .error (.moderation e.toText)
  | .ok result =>
    if result.flagged && config.blockOnModerationFailure then .ok (.blocked result)
    else .ok .allowed

/-! ## Masking the texts of a message -/

section Texts

variable (f : PiiMasker → Text → Option Text × PiiMasker)

/-- Rewrite the text of every content item that has one. -/
def rewriteContents : List ChatContent → PiiMasker → Option (List ChatContent) × PiiMasker
  | [], masker => (some [], masker)
  | item :: rest, masker =>
    match item.asText with
    | none =>
      let (rest, masker) := rewriteContents rest masker
      (rest.map (item :: ·), masker)
    | some text =>
      match f masker text.toList with
      | (none, masker) => (none, masker)
      | (some text, masker) =>
        let (rest, masker) := rewriteContents rest masker
        (rest.map (.text (String.ofList text) :: ·), masker)

/-- Rewrite the texts of every message. -/
def rewriteMessages : List ChatMessage → PiiMasker → Option (List ChatMessage) × PiiMasker
  | [], masker => (some [], masker)
  | message :: rest, masker =>
    match message.content with
    | none =>
      let (rest, masker) := rewriteMessages rest masker
      (rest.map (message :: ·), masker)
    | some items =>
      match rewriteContents f items masker with
      | (none, masker) => (none, masker)
      | (some items, masker) =>
        let (rest, masker) := rewriteMessages rest masker
        (rest.map ({ message with content := some items } :: ·), masker)

end Texts

/-! ## The orchestrator -/

/-- The masker, if it is on, and the configuration. -/
structure GuardrailsOrchestrator where
  piiMasker : Option PiiMasker
  config : GuardrailsConfig

/-- `new`, with the default patterns as an argument. -/
def GuardrailsOrchestrator.new (defaultPatterns : List PiiPattern) (config : GuardrailsConfig) :
    GuardrailsOrchestrator :=
  ⟨if config.piiEnabled then some (PiiMasker.new defaultPatterns) else none, config⟩

/-- The messages with their texts rewritten, when masking is on. -/
def GuardrailsOrchestrator.rewrite (g : GuardrailsOrchestrator)
    (f : PiiMasker → Text → Option Text × PiiMasker) (messages : List ChatMessage) :
    Option (List ChatMessage) × GuardrailsOrchestrator :=
  match g.config.piiEnabled, g.piiMasker with
  | true, some masker =>
    let (messages, masker) := rewriteMessages f messages masker
    (messages, { g with piiMasker := some masker })
  | _, _ => (some messages, g)

/-- `pre_call`: the rewritten request with the verdict. -/
def GuardrailsOrchestrator.preCall (g : GuardrailsOrchestrator) (service : ModerationService)
    (request : ChatCompletionRequest) (requestId : String) :
    Option (ChatCompletionRequest × Except GuardrailsError GuardrailsVerdict)
      × GuardrailsOrchestrator :=
  match g.rewrite (fun masker text => masker.mask text requestId) request.messages with
  | (none, g) => (none, g)
  | (some messages, g) =>
    let verdict :=
      if g.config.moderationPre then
        g.config.moderate service (messages.filterMap ChatMessage.contentAsText)
      else .ok .allowed
    (some ({ request with messages := messages }, verdict), g)

/-- The completion with its messages replaced, in order. -/
def ChatCompletionResponse.withMessages (response : ChatCompletionResponse)
    (messages : List ChatMessage) : ChatCompletionResponse :=
  { response with
    choices := List.zipWith (fun choice message => { choice with message := message })
      response.choices messages }

/-- `post_call`: the completion with the verdict. Nothing is unmasked unless the completion is
    allowed. -/
def GuardrailsOrchestrator.postCall (g : GuardrailsOrchestrator) (service : ModerationService)
    (response : ChatCompletionResponse) (requestId : String) :
    Option (ChatCompletionResponse × Except GuardrailsError GuardrailsVerdict)
      × GuardrailsOrchestrator :=
  let messages := response.choices.map ChatCompletionChoice.message
  let verdict :=
    if g.config.moderationPost then
      g.config.moderate service (messages.filterMap ChatMessage.contentAsText)
    else .ok .allowed
  match verdict with
  | .ok .allowed =>
    match g.rewrite (fun masker text => masker.unmask text requestId) messages with
    | (none, g) => (none, g)
    | (some messages, g) => (some (response.withMessages messages, .ok .allowed), g)
  | verdict => (some (response, verdict), g)

end Godwit
