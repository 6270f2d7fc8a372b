import Godwit.Core.Proofs.ChatWire
import Godwit.Core.Proofs.Conversation

set_option autoImplicit false

/-! # What masking leaves as it is

`pre_call` rewrites a content item through its text: an item with a text becomes that text, masked, and an item
without one stays. An item that is read from a document has one part, so no image stands beside a text in it. -/

namespace Godwit

/-- The part is an image. -/
def ChatContentPart.isImage : ChatContentPart → Bool
  | .text _ => false
  | .imageUrl _ _ => true

/-- The images of a content item. -/
def ChatContent.images : ChatContent → List ChatContentPart
  | .text _ => []
  | .parts items => items.filter ChatContentPart.isImage

/-- An item with a text is a text again, and the images of an item stay. -/
structure ChatContent.Kept (item item' : ChatContent) : Prop where
  images : item'.images = item.images
  asText : item'.asText.isSome = item.asText.isSome
  withoutText : item.asText = none → item' = item

/-- A message whose items are all kept, and the rest of it is the same. -/
structure ChatMessage.Kept (message message' : ChatMessage) : Prop where
  content : Option.Rel (List.Forall₂ ChatContent.Kept) message.content message'.content
  others : message' = { message with content := message'.content }

/-! ## One part an item -/

/-- What one entry of a document can hold. -/
def ChatContent.Single (item : ChatContent) : Prop := (∃ text, item = .text text) ∨ ∃ part, item = .parts [part]

theorem decodeContentItem_single {v : Json} {item : ChatContent} (h : decodeContentItem v = .ok item) :
    item.Single := by
  unfold decodeContentItem at h
  split at h
  · cases h
    exact .inl ⟨_, rfl⟩
  · split at h
    · cases h
      exact .inr ⟨_, rfl⟩
    · cases h
  · cases h

theorem decodeContentItems_single {items : List Json} {contents : List ChatContent}
    (h : decodeContentItems items = .ok contents) : ∀ item ∈ contents, item.Single := by
  induction items generalizing contents with
  | nil =>
      cases h
      simp
  | cons v rest ih =>
      rw [decodeContentItems_cons] at h
      cases hitem : decodeContentItem v with
      | error e =>
          rw [hitem] at h
          cases h
      | ok item =>
          cases hrest : decodeContentItems rest with
          | error e =>
              rw [hitem, hrest] at h
              cases h
          | ok items =>
              rw [hitem, hrest] at h
              cases h
              exact List.forall_mem_cons.2 ⟨decodeContentItem_single hitem, ih hrest⟩

theorem deserializeChatContent_single {json : Json} {contents : List ChatContent}
    (h : deserializeChatContent json = .ok (some contents)) : ∀ item ∈ contents, item.Single := by
  unfold deserializeChatContent at h
  split at h
  · cases h
  · cases h
    exact List.forall_mem_singleton.2 (.inl ⟨_, rfl⟩)
  · rename_i items
    cases hitems : decodeContentItems items with
    | error e =>
        rw [hitems] at h
        cases h
    | ok items' =>
        rw [hitems] at h
        cases h
        exact decodeContentItems_single hitems
  · cases h
  · cases h

/-- The items of all contents are single. -/
def ChatMessage.Single (message : ChatMessage) : Prop :=
  ∀ items, message.content = some items → ∀ item ∈ items, item.Single

theorem contents_single_of_toOption {value : Json} {content : Option (List ChatContent)}
    (h : (deserializeChatContent value).toOption = some content) :
    ∀ items, content = some items → ∀ item ∈ items, item.Single := by
  rintro items rfl
  cases hvalue : deserializeChatContent value with
  | error e =>
      rw [hvalue] at h
      cases h
  | ok content =>
      rw [hvalue] at h
      cases h
      exact deserializeChatContent_single hvalue

theorem decodeMessage_single {json : Json} {message : ChatMessage} (h : decodeMessage json = some message) :
    message.Single := by
  simp only [decodeMessage, Option.bind_eq_bind, Option.bind_eq_some_iff] at h
  obtain ⟨field, -, role, -, h⟩ := h
  split at h
  · simp only [Option.bind_some, Option.bind_eq_some_iff] at h
    obtain ⟨name, -, toolCalls, -, toolCallId, -, cacheControl, -, hmessage⟩ := h
    cases hmessage
    exact fun items hnone => by cases hnone
  · simp only [Option.bind_eq_some_iff] at h
    obtain ⟨content, hcontent, name, -, toolCalls, -, toolCallId, -, cacheControl, -, hmessage⟩ := h
    cases hmessage
    exact contents_single_of_toOption hcontent

theorem exists_of_mapM {α β : Type} {f : α → Option β} {xs : List α} {ys : List β} (h : xs.mapM f = some ys) :
    ∀ y ∈ ys, ∃ x ∈ xs, f x = some y := by
  induction xs generalizing ys with
  | nil =>
      cases h
      simp
  | cons x rest ih =>
      rw [List.mapM_cons] at h
      simp only [Option.bind_eq_bind, Option.bind_eq_some_iff, Option.pure_def, Option.some.injEq] at h
      obtain ⟨y, hy, ys, hys, rfl⟩ := h
      refine List.forall_mem_cons.2 ⟨⟨x, List.mem_cons_self, hy⟩, fun y' hy' => ?_⟩
      obtain ⟨x', hx', hf⟩ := ih hys y' hy'
      exact ⟨x', List.mem_cons_of_mem _ hx', hf⟩

theorem decodeRequest_single {json : Json} {request : ChatCompletionRequest} (h : decodeRequest json = some request) :
    ∀ message ∈ request.messages, message.Single := by
  simp only [decodeRequest, Option.bind_eq_bind, Option.bind_eq_some_iff, Option.pure_def, Option.some.injEq] at h
  obtain ⟨field, -, model, -, messages, hmessages, stream, -, maxTokens, -, tools, -, responseFormat, -, parameters,
    -, rfl⟩ := h
  intro message hmessage
  obtain ⟨json, -, hjson⟩ := Option.bind_eq_some_iff.1 hmessages
  unfold decodeList at hjson
  split at hjson
  · obtain ⟨v, -, hv⟩ := exists_of_mapM hjson message hmessage
    exact decodeMessage_single hv
  · cases hjson

/-! ## Items -/

theorem ChatContent.Rewritten.kept {item item' : ChatContent} (h : item.Rewritten item') (hitem : item.Single) :
    item.Kept item' := by
  rcases h with ⟨hnone, rfl⟩ | ⟨hsome, text, rfl⟩
  · exact ⟨rfl, rfl, fun _ => rfl⟩
  · refine ⟨?_, by rw [hsome]; rfl, fun hnone => by simp [hnone] at hsome⟩
    rcases hitem with ⟨text', rfl⟩ | ⟨part, rfl⟩
    · rfl
    · -- the part that stands alone has a text
      cases part with
      | text text' => rfl
      | imageUrl url detail => cases hsome

theorem ChatMessage.Rewritten.kept {message message' : ChatMessage} (h : message.Rewritten message')
    (hmessage : message.Single) : message.Kept message' := by
  obtain ⟨hcontent, hothers⟩ := h
  refine ⟨?_, hothers⟩
  unfold ChatMessage.Single at hmessage
  generalize message.content = content, message'.content = content' at hcontent hmessage
  cases hcontent with
  | none => exact .none
  | some hitems =>
      have hsingle := (List.forall₂_and_left _ _).2 ⟨hmessage _ rfl, hitems⟩
      exact .some (hsingle.imp fun _ _ h => h.2.kept h.1)

theorem ChatContent.Kept.refl (item : ChatContent) : item.Kept item := ⟨rfl, rfl, fun _ => rfl⟩

theorem ChatMessage.Kept.refl (message : ChatMessage) : message.Kept message := by
  refine ⟨?_, rfl⟩
  cases message.content with
  | none => exact .none
  | some items => exact .some (List.forall₂_same.2 fun item _ => .refl item)

/-- Whether or not there is a masker, and whatever its function. -/
theorem GuardrailsOrchestrator.rewrite_kept {g g' : GuardrailsOrchestrator}
    {f : PiiMasker → Text → Option Text × PiiMasker} {messages messages' : List ChatMessage}
    (h : g.rewrite f messages = (some messages', g')) (hsingle : ∀ message ∈ messages, message.Single) :
    g'.config = g.config ∧ List.Forall₂ ChatMessage.Kept messages messages' := by
  unfold GuardrailsOrchestrator.rewrite at h
  split at h
  · rename_i masker _ _
    cases hrewrite : rewriteMessages f messages masker with
    | mk rewritten masker' =>
        rw [hrewrite] at h
        cases h
        have hrewritten := rewriteMessages_rewritten (congrArg Prod.fst hrewrite)
        have hboth := (List.forall₂_and_left _ _).2 ⟨hsingle, hrewritten⟩
        exact ⟨rfl, hboth.imp fun _ _ hmessage => hmessage.2.kept hmessage.1⟩
  · cases h
    exact ⟨rfl, List.forall₂_same.2 fun message _ => .refl message⟩

/-- Masking the texts of a decoded request keeps its messages, their items and every image, and the rest of the
    request. -/
theorem GuardrailsOrchestrator.preCall_kept (g : GuardrailsOrchestrator) (service : ModerationService) (json : Json)
    (request : ChatCompletionRequest) (requestId : String) (hdecoded : decodeRequest json = some request)
    (hmoderation : g.config.moderationPre = false) :
    ∃ messages, (g.preCall service request requestId).1 = some ({ request with messages := messages }, .ok .allowed)
      ∧ List.Forall₂ ChatMessage.Kept request.messages messages := by
  have hsome := g.rewrite_mask_isSome requestId request.messages
  unfold GuardrailsOrchestrator.preCall
  split
  · rename_i hrewrite
    simp [hrewrite] at hsome
  · rename_i messages g' hrewrite
    obtain ⟨hconfig, hmessages⟩ := rewrite_kept hrewrite (decodeRequest_single hdecoded)
    refine ⟨messages, ?_, hmessages⟩
    rw [hconfig, hmoderation]
    rfl

/-- A message with a text, an image and another text. -/
def imageBody : Json :=
  .obj [("model", .str "m"), ("messages", .arr [.obj [("role", .str "user"), ("content", .arr
    [.str "call 5", .obj [("image_url", .obj [("image_url", .obj [("url", .str "u")])])],
      .obj [("text", .obj [("text", .str "or 6")])]])]])]

/-- A message with an image between two texts. -/
def imageRequest : ChatCompletionRequest :=
  ⟨"m", [⟨"user", some [.text "call 5", .parts [.imageUrl "u" none], .parts [.text "or 6"]], none, none, none, none⟩],
    none, none, none, none, .object []⟩

/-- Digits are masked, the image stays. -/
theorem GuardrailsOrchestrator.preCall_kept_image :
    ∃ messages, ((⟨some (.new [.charClass Char.isDigit "[N]".toList]), ⟨true, false, false, true⟩⟩
        : GuardrailsOrchestrator).preCall quietService imageRequest "r").1
      = some ({ imageRequest with messages := messages }, .ok .allowed)
      ∧ List.Forall₂ ChatMessage.Kept imageRequest.messages messages :=
  preCall_kept _ quietService imageBody imageRequest "r" (by rfl) rfl

end Godwit
