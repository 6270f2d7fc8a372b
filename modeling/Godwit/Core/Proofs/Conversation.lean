import Godwit.Core.Proofs.DefaultPatterns
import Godwit.Core.Proofs.Guardrails

set_option autoImplicit false

/-! # Masking and unmasking a conversation

The texts of a request are masked one after another under one request id, and each takes the place of the
entry before. Of a completion that echoes them the first is unmasked with the entry of the last. -/

namespace Godwit

/-! ## The texts of messages, one after another -/

section Texts

variable (f : PiiMasker → Text → Option Text × PiiMasker)

/-- Rewrite texts, as the content items of messages are rewritten. -/
def rewriteTexts : List Text → PiiMasker → Option (List Text) × PiiMasker
  | [], masker => (some [], masker)
  | text :: rest, masker =>
    match f masker text with
    | (none, masker) => (none, masker)
    | (some text, masker) =>
      let (rest, masker) := rewriteTexts rest masker
      (rest.map (text :: ·), masker)

/-- A content item with a text. -/
def plainItem (text : Text) : ChatContent := .text (String.ofList text)

/-- The content items of messages. -/
def contentItems (messages : List ChatMessage) : List ChatContent :=
  messages.flatMap fun message => message.content.getD []

@[simp] theorem contentItems_cons (message : ChatMessage) (rest : List ChatMessage) :
    contentItems (message :: rest) = message.content.getD [] ++ contentItems rest := rfl

variable {f}

theorem rewriteTexts_append (first second : List Text) (masker : PiiMasker) :
    rewriteTexts f (first ++ second) masker
      = match rewriteTexts f first masker with
        | (none, masker) => (none, masker)
        | (some first', masker) =>
          ((rewriteTexts f second masker).1.map (first' ++ ·), (rewriteTexts f second masker).2) := by
  induction first generalizing masker with
  | nil => simp [rewriteTexts]
  | cons text rest ih =>
      rw [List.cons_append, rewriteTexts, rewriteTexts]
      cases hcall : f masker text with
      | mk text' masker' =>
          cases text' with
          | none => rfl
          | some text' =>
              dsimp only
              rw [ih masker']
              cases hrest : rewriteTexts f rest masker' with
              | mk rest' masker'' => cases rest' <;> simp [Function.comp_def]

/-- Plain content items are rewritten text by text. -/
theorem rewriteContents_plain (texts : List Text) (masker : PiiMasker) :
    rewriteContents f (texts.map plainItem) masker
      = ((rewriteTexts f texts masker).1.map (List.map plainItem), (rewriteTexts f texts masker).2) := by
  induction texts generalizing masker with
  | nil => rfl
  | cons text rest ih =>
      have hitem : (plainItem text).asText = some (String.ofList text) := rfl
      rw [List.map_cons, rewriteContents, rewriteTexts, hitem]
      simp only [String.toList_ofList]
      cases hcall : f masker text with
      | mk text' masker' =>
          cases text' with
          | none => rfl
          | some text' =>
              simp only [ih masker']
              cases hrest : rewriteTexts f rest masker' with
              | mk rest' masker'' => cases rest' <;> simp [plainItem]

/-- An item with a text becomes a text, and one without stays. -/
def ChatContent.Rewritten (item item' : ChatContent) : Prop :=
  (item.asText = none ∧ item' = item) ∨ (item.asText.isSome ∧ ∃ text, item' = plainItem text)

theorem rewriteContents_rewritten {items rewritten : List ChatContent} {masker : PiiMasker}
    (h : (rewriteContents f items masker).1 = some rewritten) :
    List.Forall₂ ChatContent.Rewritten items rewritten := by
  induction items generalizing rewritten masker with
  | nil =>
      obtain rfl := Option.some.inj h
      exact .nil
  | cons item rest ih =>
      rw [rewriteContents] at h
      cases htext : item.asText with
      | none =>
          rw [htext] at h
          obtain ⟨rest', hrest', rfl⟩ := Option.map_eq_some_iff.1 h
          exact .cons (.inl ⟨htext, rfl⟩) (ih hrest')
      | some text =>
          simp only [htext] at h
          cases hcall : f masker text.toList with
          | mk text' masker' =>
              rw [hcall] at h
              cases text' with
              | none => cases h
              | some text' =>
                  obtain ⟨rest', hrest', rfl⟩ := Option.map_eq_some_iff.1 h
                  exact .cons (.inr ⟨by rw [htext]; rfl, text', rfl⟩) (ih hrest')

/-- A message keeps all but its content, whose items are rewritten one by one. -/
def ChatMessage.Rewritten (message message' : ChatMessage) : Prop :=
  Option.Rel (List.Forall₂ ChatContent.Rewritten) message.content message'.content
    ∧ message' = { message with content := message'.content }

theorem rewriteMessages_rewritten {messages rewritten : List ChatMessage} {masker : PiiMasker}
    (h : (rewriteMessages f messages masker).1 = some rewritten) :
    List.Forall₂ ChatMessage.Rewritten messages rewritten := by
  induction messages generalizing rewritten masker with
  | nil =>
      obtain rfl := Option.some.inj h
      exact .nil
  | cons message rest ih =>
      rw [rewriteMessages] at h
      cases hcontent : message.content with
      | none =>
          rw [hcontent] at h
          obtain ⟨rest', hrest', rfl⟩ := Option.map_eq_some_iff.1 h
          refine .cons ⟨?_, rfl⟩ (ih hrest')
          rw [hcontent]
          exact .none
      | some items =>
          simp only [hcontent] at h
          cases hitems : rewriteContents f items masker with
          | mk items' masker' =>
              rw [hitems] at h
              cases items' with
              | none => cases h
              | some items' =>
                  obtain ⟨rest', hrest', rfl⟩ := Option.map_eq_some_iff.1 h
                  refine .cons ⟨?_, rfl⟩ (ih hrest')
                  rw [hcontent]
                  exact .some (rewriteContents_rewritten (by rw [hitems]))

theorem rewriteMessages_length {messages rewritten : List ChatMessage} {masker : PiiMasker}
    (h : (rewriteMessages f messages masker).1 = some rewritten) : rewritten.length = messages.length :=
  (rewriteMessages_rewritten h).length_eq.symm

/-- So are the messages that have them. -/
theorem rewriteMessages_plain {messages : List ChatMessage} {texts : List Text}
    (hplain : contentItems messages = texts.map plainItem) (masker : PiiMasker) :
    (rewriteMessages f messages masker).1.map contentItems
      = (rewriteTexts f texts masker).1.map (List.map plainItem) := by
  induction messages generalizing texts masker with
  | nil =>
      have hnil : texts = [] := by simpa [contentItems] using hplain.symm
      subst hnil
      simp [rewriteMessages, rewriteTexts, contentItems]
  | cons message rest ih =>
      rw [contentItems_cons] at hplain
      cases hcontent : message.content with
      | none =>
          rw [hcontent] at hplain
          simp only [rewriteMessages, hcontent]
          rw [← ih hplain masker]
          cases (rewriteMessages f rest masker).1 <;> simp [hcontent]
      | some items =>
          rw [hcontent] at hplain
          obtain ⟨first, second, rfl, rfl, hrest⟩ := List.append_eq_map_iff.1 hplain
          simp only [rewriteMessages, hcontent, rewriteContents_plain, rewriteTexts_append]
          cases hfirst : rewriteTexts f first masker with
          | mk first' masker' =>
              cases first' with
              | none => simp
              | some first' =>
                  have hitems := ih hrest.symm masker'
                  dsimp only [Option.map_some]
                  cases hsecond : (rewriteTexts f second masker').1 with
                  | none =>
                      rw [hsecond] at hitems
                      simp [Option.map_eq_none_iff.1 hitems]
                  | some second' =>
                      rw [hsecond] at hitems
                      obtain ⟨rest', hrest', hrestitems⟩ := Option.map_eq_some_iff.1 hitems
                      simp [hrest', hrestitems]

/-- The texts that are rewritten. -/
def textsOf (messages : List ChatMessage) : List Text :=
  (messages.flatMap fun message => (message.content.getD []).filterMap ChatContent.asText).map String.toList

theorem noText_of_textsOf {messages : List ChatMessage} (h : textsOf messages = []) : NoText messages := by
  intro message hmessage items hitems
  rw [textsOf, List.map_eq_nil_iff, List.flatMap_eq_nil_iff] at h
  have hnone := h message hmessage
  rw [hitems, Option.getD_some, List.filterMap_eq_nil_iff] at hnone
  exact hnone

theorem textsOf_plain {messages : List ChatMessage} {texts : List Text}
    (hplain : contentItems messages = texts.map plainItem) : textsOf messages = texts := by
  have hitems : (contentItems messages).filterMap ChatContent.asText
      = messages.flatMap fun message => (message.content.getD []).filterMap ChatContent.asText :=
    List.filterMap_flatMap ..
  rw [textsOf, ← hitems, hplain]
  simp [plainItem, ChatContent.asText, List.filterMap_map, Function.comp_def]

/-- Rewriting content items hands on the state as rewriting their texts does, and panics where that does. -/
theorem rewriteContents_state (items : List ChatContent) (masker : PiiMasker) :
    (rewriteContents f items masker).2 = (rewriteTexts f ((items.filterMap ChatContent.asText).map String.toList)
        masker).2
      ∧ (rewriteContents f items masker).1.isSome
        = (rewriteTexts f ((items.filterMap ChatContent.asText).map String.toList) masker).1.isSome := by
  induction items generalizing masker with
  | nil => exact ⟨rfl, rfl⟩
  | cons item rest ih =>
      rw [rewriteContents]
      cases htext : item.asText with
      | none =>
          rw [List.filterMap_cons_none htext]
          simpa using ih masker
      | some text =>
          rw [List.filterMap_cons_some htext, List.map_cons, rewriteTexts]
          cases hcall : f masker text.toList with
          | mk text' masker' =>
              simp only [hcall]
              cases text' with
              | none => exact ⟨rfl, rfl⟩
              | some text' => simpa using ih masker'

theorem rewriteMessages_state (messages : List ChatMessage) (masker : PiiMasker) :
    (rewriteMessages f messages masker).2 = (rewriteTexts f (textsOf messages) masker).2
      ∧ (rewriteMessages f messages masker).1.isSome = (rewriteTexts f (textsOf messages) masker).1.isSome := by
  induction messages generalizing masker with
  | nil => exact ⟨rfl, rfl⟩
  | cons message rest ih =>
      have htexts : textsOf (message :: rest)
          = ((message.content.getD []).filterMap ChatContent.asText).map String.toList ++ textsOf rest := by
        simp [textsOf]
      rw [htexts, rewriteTexts_append, rewriteMessages]
      cases hcontent : message.content with
      | none => simpa [rewriteTexts] using ih masker
      | some items =>
          obtain ⟨hstate, hsome⟩ := rewriteContents_state (f := f) items masker
          simp only [Option.getD_some]
          cases hitems : rewriteContents f items masker with
          | mk items' masker' =>
              cases htexts : rewriteTexts f ((items.filterMap ChatContent.asText).map String.toList) masker with
              | mk texts' masker'' =>
                  rw [hitems, htexts] at hstate hsome
                  obtain rfl : masker' = masker'' := hstate
                  cases items' <;> cases texts' <;> simp at hsome
                  · exact ⟨rfl, rfl⟩
                  · simpa using ih masker'

end Texts

/-! ## What is masked, recorded and unmasked -/

variable {U : UnicodeTables} {masker : PiiMasker} {requestId : String}

/-- The text with every default pattern replaced. -/
def UnicodeTables.masked (U : UnicodeTables) (text : Text) : Text :=
  U.defaultRegexes.foldl (fun text p => p.shown text) text

/-- Texts are masked each for itself, and the entry in the end is the last one's. -/
theorem rewriteTexts_mask (requestId : String) (hpatterns : masker.patterns = U.defaultPatterns)
    (texts : List Text) :
    ∃ masker', rewriteTexts (fun masker text => masker.mask text requestId) texts masker
        = (some (texts.map U.masked), masker')
      ∧ masker'.patterns = U.defaultPatterns
      ∧ ∀ last ∈ texts.getLast?, ∃ replacements,
        maskPatterns U.defaultPatterns last [] = some (U.masked last, replacements)
          ∧ masker'.maskMap requestId = some replacements := by
  induction texts generalizing masker with
  | nil => exact ⟨masker, rfl, hpatterns, by simp⟩
  | cons text rest ih =>
      obtain ⟨replacements, hmask, -⟩ := maskPatterns_compile U.defaultRegexes text []
      change maskPatterns U.defaultPatterns text [] = some (U.masked text, replacements) at hmask
      have hcall : masker.mask text requestId = (some (U.masked text),
          { masker with maskMap := Function.update masker.maskMap requestId (some replacements) }) := by
        rw [PiiMasker.mask, hpatterns, hmask]
      obtain ⟨masker', hrest, hpatterns', hlast⟩ := @ih
        { masker with maskMap := Function.update masker.maskMap requestId (some replacements) } hpatterns
      refine ⟨masker', by simp [rewriteTexts, hcall, hrest], hpatterns', fun last hin => ?_⟩
      cases rest with
      | nil =>
          obtain rfl : text = last := by simpa using hin
          obtain rfl := (Prod.mk.inj hrest).2
          exact ⟨replacements, hmask, Function.update_self _ _ _⟩
      | cons next rest => exact hlast last (by simpa [List.getLast?_cons] using hin)

/-- Without an entry texts stay as they are. -/
theorem rewriteTexts_unmask_of_none (hnone : masker.maskMap requestId = none) (texts : List Text) :
    rewriteTexts (fun masker text => masker.unmask text requestId) texts masker = (some texts, masker) := by
  induction texts with
  | nil => rfl
  | cons text rest ih =>
      have hcall : masker.unmask text requestId = (some text, masker) := by rw [PiiMasker.unmask, hnone]
      simp [rewriteTexts, hcall, ih]

/-- The first text takes the entry, and the others stay as they are. -/
theorem rewriteTexts_unmask_cons {replacements : List Replacement}
    (hentry : masker.maskMap requestId = some replacements) (text : Text) (rest : List Text) :
    (rewriteTexts (fun masker text => masker.unmask text requestId) (text :: rest) masker).1
      = (unmaskReplacements replacements 0 text).map (· :: rest) := by
  have hcall : masker.unmask text requestId = (unmaskReplacements replacements 0 text,
      { masker with maskMap := Function.update masker.maskMap requestId none }) := by
    rw [PiiMasker.unmask, hentry]
  have hnone : ({ masker with maskMap := Function.update masker.maskMap requestId none } : PiiMasker).maskMap
      requestId = none := Function.update_self _ _ _
  rw [rewriteTexts, hcall]
  cases unmaskReplacements replacements 0 text with
  | none => rfl
  | some unmasked => simp [rewriteTexts_unmask_of_none hnone]

/-- With an entry without replacements, or without an entry, texts stay as they are. -/
theorem rewriteTexts_unmask_of_empty (hentry : ∀ replacements, masker.maskMap requestId = some replacements →
    replacements = []) (texts : List Text) :
    (rewriteTexts (fun masker text => masker.unmask text requestId) texts masker).1 = some texts := by
  cases hmap : masker.maskMap requestId with
  | none => rw [rewriteTexts_unmask_of_none hmap]
  | some replacements =>
      obtain rfl := hentry replacements hmap
      cases texts with
      | nil => rfl
      | cons text rest =>
          rw [rewriteTexts_unmask_cons hmap]
          rfl

/-- There is no range to replace in the empty text. -/
theorem unmaskReplacements_nil_text {r : Replacement} (hr : r.placeholder ≠ []) (rest : List Replacement) :
    unmaskReplacements (r :: rest) 0 [] = none := by
  have hpos : 0 < r.placeholder.len := by
    obtain ⟨c, placeholder, hcons⟩ := List.exists_cons_of_ne_nil hr
    have hc := c.utf8Size_pos
    simp only [Text.len, hcons, extent_cons]
    omega
  have hrange : replaceRange? Char.utf8Size [] r.start (r.start + r.placeholder.len) r.original = none := by
    have hrest : splitAt? Char.utf8Size [] r.placeholder.len = none := by
      rw [← Nat.succ_pred_eq_of_pos hpos]
      rfl
    rw [replaceRange?, if_pos (Nat.le_add_right _ _), Nat.add_sub_cancel_left]
    cases r.start with
    | zero => simp [splitAt?, hrest]
    | succ n => rfl
  simp [unmaskReplacements, hrange]

/-- Masking changes nothing exactly where no default pattern matches anything. -/
theorem UnicodeTables.masked_eq_iff (text : Text) :
    U.masked text = text ↔ ∀ p ∈ U.defaultRegexes, ¬ p.Occurs text :=
  U.foldl_shown_eq_iff (fun _ hp => hp) text

/-! ## The orchestrator -/

/-- The content items of the choices, in order. -/
def ChatCompletionResponse.items (response : ChatCompletionResponse) : List ChatContent :=
  contentItems (response.choices.map ChatCompletionChoice.message)

theorem map_message_withMessages {choices : List ChatCompletionChoice} {messages : List ChatMessage}
    (hlength : messages.length = choices.length) :
    (List.zipWith (fun choice message => { choice with message := message }) choices messages).map
      ChatCompletionChoice.message = messages := by
  induction choices generalizing messages with
  | nil => simpa using hlength
  | cons choice choices ih =>
      cases messages with
      | nil => simp at hlength
      | cons message messages =>
          have hrest : messages.length = choices.length := Nat.succ.inj hlength
          simpa using ih hrest

theorem ChatCompletionResponse.items_withMessages (response : ChatCompletionResponse)
    {messages : List ChatMessage} (hlength : messages.length = response.choices.length) :
    (response.withMessages messages).items = contentItems messages :=
  congrArg contentItems (map_message_withMessages hlength)

variable {g : GuardrailsOrchestrator} {config : GuardrailsConfig}

/-- An orchestrator that masks has a masker with the patterns. -/
theorem GuardrailsOrchestrator.Configured.masking {patterns : List PiiPattern}
    (hg : g.Configured patterns config) (hpii : config.piiEnabled = true) :
    g.config.piiEnabled = true ∧ ∃ masker, g.piiMasker = some masker ∧ masker.patterns = patterns := by
  have hmasker := hg.masker
  rw [if_pos hpii] at hmasker
  exact ⟨by rw [hg.settings, hpii], Option.map_eq_some_iff.1 hmasker⟩

theorem GuardrailsOrchestrator.rewrite_of_masking {f : PiiMasker → Text → Option Text × PiiMasker}
    (hpii : g.config.piiEnabled = true) (hmasker : g.piiMasker = some masker) (messages : List ChatMessage) :
    g.rewrite f messages = ((rewriteMessages f messages masker).1,
      { g with piiMasker := some (rewriteMessages f messages masker).2 }) := by
  rw [GuardrailsOrchestrator.rewrite, hpii, hmasker]

/-- `pre_call` masks every text for itself and keeps the entry of the last. -/
theorem GuardrailsOrchestrator.preCall_plain (hg : g.Configured U.defaultPatterns config)
    (hpii : config.piiEnabled = true) (hpre : config.moderationPre = false) (service : ModerationService)
    (requestId : String) {request : ChatCompletionRequest}
    {texts : List Text} (htexts : contentItems request.messages = texts.map plainItem) :
    ∃ masked g', g.preCall service request requestId = (some (masked, .ok .allowed), g')
      ∧ g'.Configured U.defaultPatterns config
      ∧ contentItems masked.messages = (texts.map U.masked).map plainItem
      ∧ ∀ last ∈ texts.getLast?, ∃ replacements,
        maskPatterns U.defaultPatterns last [] = some (U.masked last, replacements)
          ∧ g'.maskEntry requestId = some replacements := by
  obtain ⟨hgpii, masker, hmasker, hpatterns⟩ := hg.masking hpii
  obtain ⟨masker', htextsmask, hpatterns', hlast⟩ := rewriteTexts_mask requestId hpatterns texts
  have hstate := (rewriteMessages_state (f := fun masker text => masker.mask text requestId) request.messages
    masker).1
  have hitems := rewriteMessages_plain htexts masker (f := fun masker text => masker.mask text requestId)
  rw [textsOf_plain htexts] at hstate
  rw [htextsmask] at hstate hitems
  obtain ⟨messages, hmessages, hcontent⟩ := Option.map_eq_some_iff.1 hitems
  have hrewrite : g.rewrite (fun masker text => masker.mask text requestId) request.messages
      = (some messages, { g with piiMasker := some masker' }) := by
    rw [GuardrailsOrchestrator.rewrite_of_masking hgpii hmasker, hmessages, hstate]
  have hmoderation : g.config.moderationPre = false := by rw [hg.settings, hpre]
  refine ⟨{ request with messages := messages }, { g with piiMasker := some masker' }, ?_,
    ⟨hg.settings, by simp [hpii, hpatterns']⟩, hcontent, hlast⟩
  rw [GuardrailsOrchestrator.preCall, hrewrite]
  simp [hmoderation]

/-- `post_call` unmasks the texts one after another. -/
theorem GuardrailsOrchestrator.postCall_plain (hg : g.Configured U.defaultPatterns config)
    (hpii : config.piiEnabled = true) (hpost : config.moderationPost = false) (service : ModerationService)
    (requestId : String)
    {response : ChatCompletionResponse} {texts : List Text} (htexts : response.items = texts.map plainItem) :
    ∃ masker, g.piiMasker = some masker
      ∧ match (rewriteTexts (fun masker text => masker.unmask text requestId) texts masker).1 with
        | none => (g.postCall service response requestId).1 = none
        | some unmasked => ∃ restored,
          (g.postCall service response requestId).1 = some (restored, .ok .allowed)
            ∧ restored.items = unmasked.map plainItem := by
  obtain ⟨hgpii, masker, hmasker, -⟩ := hg.masking hpii
  refine ⟨masker, hmasker, ?_⟩
  have hitems := rewriteMessages_plain htexts masker (f := fun masker text => masker.unmask text requestId)
  have hmoderation : g.config.moderationPost = false := by rw [hg.settings, hpost]
  have hrewrite := GuardrailsOrchestrator.rewrite_of_masking (f := fun masker text => masker.unmask text requestId)
    hgpii hmasker (response.choices.map ChatCompletionChoice.message)
  cases hunmasked : (rewriteTexts (fun masker text => masker.unmask text requestId) texts masker).1 with
  | none =>
      rw [hunmasked] at hitems
      have hnone := Option.map_eq_none_iff.1 hitems
      rw [hnone] at hrewrite
      simp [GuardrailsOrchestrator.postCall, hmoderation, hrewrite]
  | some unmasked =>
      rw [hunmasked] at hitems
      obtain ⟨messages, hmessages, hcontent⟩ := Option.map_eq_some_iff.1 hitems
      rw [hmessages] at hrewrite
      refine ⟨response.withMessages messages, ?_, ?_⟩
      · simp [GuardrailsOrchestrator.postCall, hmoderation, hrewrite]
      · rw [ChatCompletionResponse.items_withMessages _ (by simpa using rewriteMessages_length hmessages), hcontent]

/-- The entry that `pre_call` leaves for a request with texts: the replacements of the last text. -/
theorem GuardrailsOrchestrator.preCall_maskEntry (hg : g.Configured U.defaultPatterns config)
    (hpii : config.piiEnabled = true) (service : ModerationService) (requestId : String)
    (request : ChatCompletionRequest) {last : Text} (hlast : last ∈ (textsOf request.messages).getLast?) :
    ∃ replacements, (g.preCall service request requestId).2.maskEntry requestId = some replacements
      ∧ (replacements = [] ↔ ∀ p ∈ U.defaultRegexes, ¬ p.Occurs last)
      ∧ ∀ r ∈ replacements, ∃ p ∈ U.defaultRegexes, r.placeholder = p.replacement := by
  obtain ⟨hgpii, masker, hmasker, hpatterns⟩ := hg.masking hpii
  obtain ⟨masker', htexts, -, hentry⟩ := rewriteTexts_mask requestId hpatterns (textsOf request.messages)
  have hstate := (rewriteMessages_state (f := fun masker text => masker.mask text requestId) request.messages
    masker).1
  rw [htexts] at hstate
  obtain ⟨replacements, hmask, hstored⟩ := hentry last hlast
  obtain ⟨new, hnew, hempty, hplaceholder⟩ := maskPatterns_compile U.defaultRegexes last []
  obtain rfl : replacements = new := by
    have hsame := hmask.symm.trans hnew
    exact (Prod.mk.inj (Option.some.inj hsame)).2
  refine ⟨replacements, ?_, hempty, hplaceholder⟩
  rw [preCall_snd, rewrite_of_masking hgpii hmasker, hstate]
  exact hstored

/-- `post_call` does not panic while no replacements are stored for the request. -/
theorem GuardrailsOrchestrator.postCall_isSome (service : ModerationService) (response : ChatCompletionResponse)
    (hentry : ∀ replacements, g.maskEntry requestId = some replacements → replacements = []) :
    (g.postCall service response requestId).1.isSome := by
  have hsome : (g.rewrite (fun masker text => masker.unmask text requestId)
      (response.choices.map ChatCompletionChoice.message)).1.isSome := by
    rw [GuardrailsOrchestrator.rewrite]
    split
    · rename_i masker hgpii hmasker
      have hempty : ∀ replacements, masker.maskMap requestId = some replacements → replacements = [] := by
        intro replacements hstored
        refine hentry replacements ?_
        rw [maskEntry, hmasker]
        exact hstored
      have hstate := (rewriteMessages_state (f := fun masker text => masker.unmask text requestId)
        (response.choices.map ChatCompletionChoice.message) masker).2
      rw [rewriteTexts_unmask_of_empty hempty] at hstate
      exact hstate
    · rfl
  unfold GuardrailsOrchestrator.postCall
  dsimp only
  split
  · split
    · rename_i hrewrite
      simp [hrewrite] at hsome
    · rfl
  · rfl

/-- A completion with the empty text. -/
def blankCompletion : ChatCompletionResponse where
  id := ""
  model := ""
  created := 0
  choices := [⟨0, ⟨"assistant", some [.text ""], none, none, none, none⟩, none, none⟩]
  usage := none

/-- With replacements in store `post_call` panics on the empty text. -/
theorem GuardrailsOrchestrator.postCall_blank (hg : g.Configured U.defaultPatterns config)
    (hpii : config.piiEnabled = true) (service : ModerationService) {r : Replacement} {rest : List Replacement}
    (hentry : g.maskEntry requestId = some (r :: rest)) (hr : r.placeholder ≠ []) :
    (g.postCall service blankCompletion requestId).1 = none := by
  obtain ⟨hgpii, masker, hmasker, -⟩ := hg.masking hpii
  have hstored : masker.maskMap requestId = some (r :: rest) := by
    rw [maskEntry, hmasker] at hentry
    exact hentry
  have hnone : (g.rewrite (fun masker text => masker.unmask text requestId)
      (blankCompletion.choices.map ChatCompletionChoice.message)).1 = none := by
    have hstate := (rewriteMessages_state (f := fun masker text => masker.unmask text requestId)
      (blankCompletion.choices.map ChatCompletionChoice.message) masker).2
    have htexts : textsOf (blankCompletion.choices.map ChatCompletionChoice.message) = [[]] := rfl
    rw [htexts, rewriteTexts_unmask_cons hstored, unmaskReplacements_nil_text hr] at hstate
    rw [rewrite_of_masking hgpii hmasker]
    exact Option.isSome_eq_false_iff.1 hstate |> Option.isNone_iff_eq_none.1
  have hquiet : g.config.moderate service
      ((blankCompletion.choices.map ChatCompletionChoice.message).filterMap ChatMessage.contentAsText)
        = .ok .allowed := rfl
  unfold GuardrailsOrchestrator.postCall
  dsimp only
  rw [hquiet]
  cases hrewrite : g.rewrite (fun masker text => masker.unmask text requestId)
      (blankCompletion.choices.map ChatCompletionChoice.message) with
  | mk messages g' =>
      rw [hrewrite] at hnone
      obtain rfl : messages = none := hnone
      split_ifs <;> rfl

/-! ## The round trip -/

/-- `post_call` lets the completion through with these content items. -/
def GuardrailsOrchestrator.Restores (g : GuardrailsOrchestrator) (service : ModerationService)
    (response : ChatCompletionResponse) (requestId : String) (items : List ChatContent) : Prop :=
  ∃ restored, (g.postCall service response requestId).1 = some (restored, .ok .allowed) ∧ restored.items = items

/-- One text: its replacements are replayed in place. Several texts: there is nothing to replace in any. -/
def UnicodeTables.Restorable (U : UnicodeTables) : List Text → Prop
  | [text] => ∃ L, redact U.defaultPatterns text = some L ∧ L.Balanced Char.utf8Size
  | texts => ∀ text ∈ texts, ∀ p ∈ U.defaultRegexes, ¬ p.Occurs text

/-- The entry of the last of the texts. -/
def PiiMasker.HoldsLast (U : UnicodeTables) (masker : PiiMasker) (requestId : String) (texts : List Text) : Prop :=
  ∀ last ∈ texts.getLast?, ∃ replacements,
    maskPatterns U.defaultPatterns last [] = some (U.masked last, replacements)
      ∧ masker.maskMap requestId = some replacements

/-- One text comes back where its replacements are replayed in place. -/
theorem rewriteTexts_unmask_single {text : Text} (hlast : masker.HoldsLast U requestId [text])
    {L : Layout Char} (hred : redact U.defaultPatterns text = some L) (hbal : L.Balanced Char.utf8Size) :
    (rewriteTexts (fun masker text => masker.unmask text requestId) [U.masked text] masker).1 = some [text] := by
  obtain ⟨replacements, hmask, hentry⟩ := hlast text rfl
  obtain ⟨masked, replacements', hmask', hunmask⟩ :=
    PiiMasker.unmask_of_redact (PiiMasker.new U.defaultPatterns) text hred hbal
  obtain ⟨rfl, rfl⟩ := Prod.mk.inj (Option.some.inj (hmask.symm.trans hmask'))
  rw [rewriteTexts_unmask_cons hentry, hunmask]
  rfl

/-- Of several texts the last leaves an entry without replacements if it comes back as it was echoed. -/
theorem rewriteTexts_unmask_several {first next : Text} {rest : List Text}
    (hlast : masker.HoldsLast U requestId (first :: next :: rest)) :
    (rewriteTexts (fun masker text => masker.unmask text requestId) ((first :: next :: rest).map U.masked)
        masker).1 = some (first :: next :: rest)
      ↔ ∀ text ∈ first :: next :: rest, U.masked text = text := by
  obtain ⟨last, hin⟩ : ∃ last, (next :: rest).getLast? = some last :=
    ⟨_, List.getLast?_eq_some_getLast (List.cons_ne_nil _ _)⟩
  obtain ⟨replacements, hmask, hentry⟩ := hlast last (by simp [List.getLast?_cons_cons, hin])
  have hempty (hclean : ∀ text ∈ next :: rest, U.masked text = text) : replacements = [] := by
    obtain ⟨new, hmask', hnew, -⟩ := maskPatterns_compile U.defaultRegexes last []
    have hlastclean := (U.masked_eq_iff last).1 (hclean last (List.mem_of_getLast? hin))
    rw [hnew.2 hlastclean] at hmask'
    exact (Prod.mk.inj (Option.some.inj (hmask.symm.trans hmask'))).2
  rw [List.map_cons, rewriteTexts_unmask_cons hentry]
  constructor
  · intro h
    obtain ⟨unmasked, hunmasked, htexts⟩ := Option.map_eq_some_iff.1 h
    obtain ⟨rfl, hrest⟩ := List.cons.inj htexts
    have hclean : ∀ text ∈ next :: rest, U.masked text = text :=
      List.map_inj_left.1 (hrest.trans (List.map_id _).symm)
    rw [hempty hclean] at hunmasked
    exact List.forall_mem_cons.2 ⟨Option.some.inj hunmasked, hclean⟩
  · intro hclean
    obtain ⟨hfirst, hrest⟩ := List.forall_mem_cons.1 hclean
    rw [hempty hrest, hfirst, List.map_congr_left hrest]
    simp [unmaskReplacements]

theorem UnicodeTables.restorable_several {first next : Text} {rest : List Text} :
    U.Restorable (first :: next :: rest) ↔ ∀ text ∈ first :: next :: rest, U.masked text = text := by
  simp only [masked_eq_iff]
  rfl

theorem plainItems_injective : Function.Injective (List.map plainItem) := by
  refine List.map_injective_iff.2 fun first second h => ?_
  exact String.ofList_injective (ChatContent.text.inj h)

/-- What `post_call` makes of an echo. -/
theorem GuardrailsOrchestrator.restores_iff (hg : g.Configured U.defaultPatterns config)
    (hpii : config.piiEnabled = true) (hpost : config.moderationPost = false) (service : ModerationService)
    (requestId : String) {response : ChatCompletionResponse} {echoed : List Text}
    (hechoed : response.items = echoed.map plainItem) (texts : List Text) :
    ∃ masker, g.piiMasker = some masker ∧ (g.Restores service response requestId (texts.map plainItem) ↔
      (rewriteTexts (fun masker text => masker.unmask text requestId) echoed masker).1 = some texts) := by
  obtain ⟨masker, hmasker, hcall⟩ := postCall_plain hg hpii hpost service requestId hechoed
  refine ⟨masker, hmasker, ?_⟩
  cases hunmasked : (rewriteTexts (fun masker text => masker.unmask text requestId) echoed masker).1 with
  | none =>
      rw [hunmasked] at hcall
      constructor
      · rintro ⟨restored, hrestored, -⟩
        rw [hcall] at hrestored
        cases hrestored
      · intro h
        cases h
  | some unmasked =>
      rw [hunmasked] at hcall
      obtain ⟨restored, hrestored, hitems⟩ := hcall
      constructor
      · rintro ⟨restored', hrestored', hitems'⟩
        obtain rfl : restored = restored' := by
          rw [hrestored] at hrestored'
          exact (Prod.mk.inj (Option.some.inj hrestored')).1
        rw [hitems] at hitems'
        rw [plainItems_injective hitems']
      · intro h
        obtain rfl := Option.some.inj h
        exact ⟨restored, hrestored, hitems⟩

/-- An echoed conversation of several texts, or of none, comes back exactly when there is nothing to mask in it,
and an echoed text when its replacements are replayed in place. -/
theorem GuardrailsOrchestrator.postCall_restores (U : UnicodeTables) (hpii : config.piiEnabled = true)
    (hpre : config.moderationPre = false) (hpost : config.moderationPost = false)
    (hg : g.Configured U.defaultPatterns config) (service : ModerationService) (requestId : String)
    {request : ChatCompletionRequest} {texts : List Text}
    (htexts : contentItems request.messages = texts.map plainItem) :
    ∃ masked g₁, g.preCall service request requestId = (some (masked, .ok .allowed), g₁)
      ∧ g₁.Configured U.defaultPatterns config
      ∧ ∀ (g₂ : GuardrailsOrchestrator) (response : ChatCompletionResponse),
        g₂.Configured U.defaultPatterns config → g₂.maskEntry requestId = g₁.maskEntry requestId →
        response.items = contentItems masked.messages →
        (U.Restorable texts → g₂.Restores service response requestId (contentItems request.messages))
          ∧ (texts.length ≠ 1 → g₂.Restores service response requestId (contentItems request.messages) →
            U.Restorable texts) := by
  obtain ⟨masked, g₁, hcall, hg₁, hmasked, hlast⟩ :=
    preCall_plain hg hpii hpre service requestId htexts
  refine ⟨masked, g₁, hcall, hg₁, fun g₂ response hg₂ hentry hecho => ?_⟩
  rw [hmasked] at hecho
  obtain ⟨masker, hmasker, hrestores⟩ :=
    restores_iff hg₂ hpii hpost service requestId hecho texts
  have hholds : masker.HoldsLast U requestId texts := by
    intro last hin
    obtain ⟨replacements, hmask, hentry'⟩ := hlast last hin
    refine ⟨replacements, hmask, ?_⟩
    rw [← hentry, maskEntry, hmasker] at hentry'
    exact hentry'
  rw [htexts, hrestores]
  match texts, hholds with
  | [], _ => exact ⟨fun _ => rfl, fun _ _ => by simp [UnicodeTables.Restorable]⟩
  | [text], hholds =>
      refine ⟨?_, fun hlength => absurd rfl hlength⟩
      rintro ⟨L, hred, hbal⟩
      exact rewriteTexts_unmask_single hholds hred hbal
  | first :: next :: rest, hholds =>
      rw [U.restorable_several, rewriteTexts_unmask_several hholds]
      exact ⟨fun h => h, fun _ h => h⟩

/-! ## Two conversations -/

/-- Masking is on, moderation is off. -/
def maskingConfig : GuardrailsConfig := ⟨true, false, false, true⟩

/-- A request with one message. -/
def messageOf (texts : List Text) : ChatCompletionRequest where
  model := "gpt"
  messages := [⟨"user", some (texts.map plainItem), none, none, none, none⟩]
  stream := none
  maxTokens := none
  tools := none
  responseFormat := none
  parameters := .obj []

/-- A completion with a choice for every message. -/
def echoOf (messages : List ChatMessage) : ChatCompletionResponse where
  id := "cmpl"
  model := "gpt"
  created := 0
  choices := messages.map fun message => ⟨0, message, none, none⟩
  usage := none

theorem items_echoOf (messages : List ChatMessage) : (echoOf messages).items = contentItems messages := by
  simp [ChatCompletionResponse.items, echoOf, Function.comp_def]

theorem contentItems_messageOf (texts : List Text) :
    contentItems (messageOf texts).messages = texts.map plainItem := by
  simp [messageOf, contentItems]

theorem GuardrailsOrchestrator.postCall_restores_number :
    ∃ masked g₁, (GuardrailsOrchestrator.new asciiTables.defaultPatterns maskingConfig).preCall quietService
        (messageOf ["Call 555-123-4567".toList]) "req" = (some (masked, .ok .allowed), g₁)
      ∧ g₁.Restores quietService (echoOf masked.messages) "req" [plainItem "Call 555-123-4567".toList] := by
  obtain ⟨masked, g₁, hcall, hg₁, hrestores⟩ := GuardrailsOrchestrator.postCall_restores asciiTables rfl rfl rfl
    (GuardrailsOrchestrator.configured_new _ maskingConfig) quietService "req"
    (contentItems_messageOf ["Call 555-123-4567".toList])
  refine ⟨masked, g₁, hcall, ?_⟩
  rw [contentItems_messageOf] at hrestores
  refine (hrestores g₁ (echoOf masked.messages) hg₁ rfl (items_echoOf _)).1 ?_
  refine ⟨[.lit "Call ".toList, .hole 0 ⟨"555-123-4567".toList, "[PHONE]".toList⟩, .lit []], ?_, ?_⟩
  · decide +kernel
  · decide

/-- The number is looked for in the replacements of the other text. -/
theorem GuardrailsOrchestrator.postCall_not_restores :
    ¬ ∀ (U : UnicodeTables) (config : GuardrailsConfig) (g g₁ : GuardrailsOrchestrator)
      (service : ModerationService) (requestId : String) (request masked : ChatCompletionRequest)
      (response : ChatCompletionResponse) (texts : List Text),
      config.piiEnabled = true → config.moderationPre = false → config.moderationPost = false →
      g.Configured U.defaultPatterns config → contentItems request.messages = texts.map plainItem →
      g.preCall service request requestId = (some (masked, .ok .allowed), g₁) →
      response.items = contentItems masked.messages →
      g₁.Restores service response requestId (contentItems request.messages) := by
  intro h
  have hconfigured := GuardrailsOrchestrator.configured_new asciiTables.defaultPatterns maskingConfig
  have htexts := contentItems_messageOf ["555-123-4567".toList, "hello".toList]
  obtain ⟨masked, g₁, hcall, hg₁, hmasked, hlast⟩ :=
    preCall_plain hconfigured rfl rfl quietService "req" htexts
  have hrestores := h asciiTables maskingConfig _ g₁ quietService "req" _ masked (echoOf masked.messages) _ rfl rfl
    rfl hconfigured htexts hcall (items_echoOf _)
  obtain ⟨masker, hmasker, hiff⟩ := restores_iff hg₁ rfl rfl quietService "req"
    ((items_echoOf _).trans hmasked) ["555-123-4567".toList, "hello".toList]
  rw [htexts, hiff, rewriteTexts_unmask_several] at hrestores
  · exact absurd (hrestores _ List.mem_cons_self) (by decide +kernel)
  · intro last hin
    obtain ⟨replacements, hmask, hentry⟩ := hlast last hin
    rw [maskEntry, hmasker] at hentry
    exact ⟨replacements, hmask, hentry⟩

end Godwit
