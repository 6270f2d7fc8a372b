import Godwit.Core.Guardrails
import Godwit.Core.Proofs.PiiMasking

set_option autoImplicit false

/-! # What the guardrails remember

`pre_call` stores an entry under its request id as soon as one text is masked, and only an unmasked
text of the same request removes it. -/

namespace Godwit

/-! ## Texts of messages -/

/-- No message has a text to rewrite. -/
def NoText (messages : List ChatMessage) : Prop :=
  ∀ message ∈ messages, ∀ items, message.content = some items → ∀ item ∈ items, item.asText = none

section Rewrite

variable {f : PiiMasker → Text → Option Text × PiiMasker} {P : PiiMasker → Prop}

theorem rewriteContents_preserves (hf : ∀ masker text, P masker → P (f masker text).2)
    (items : List ChatContent) {masker : PiiMasker} (h : P masker) :
    P (rewriteContents f items masker).2 := by
  induction items generalizing masker with
  | nil => exact h
  | cons item rest ih =>
      unfold rewriteContents
      split
      · exact ih h
      · rename_i text _
        have hstep := hf masker text.toList h
        split
        · rename_i masker' hcall
          rwa [hcall] at hstep
        · rename_i text' masker' hcall
          rw [hcall] at hstep
          exact ih hstep

theorem rewriteMessages_preserves (hf : ∀ masker text, P masker → P (f masker text).2)
    (messages : List ChatMessage) {masker : PiiMasker} (h : P masker) :
    P (rewriteMessages f messages masker).2 := by
  induction messages generalizing masker with
  | nil => exact h
  | cons message rest ih =>
      unfold rewriteMessages
      split
      · exact ih h
      · rename_i items _
        have hstep := rewriteContents_preserves hf items h
        split
        · rename_i masker' hcall
          rwa [hcall] at hstep
        · rename_i items' masker' hcall
          rw [hcall] at hstep
          exact ih hstep

/-- Rewriting that never panics on a text never panics on a list of messages. -/
theorem rewriteContents_isSome (hf : ∀ masker text, (f masker text).1.isSome) (items : List ChatContent)
    (masker : PiiMasker) : (rewriteContents f items masker).1.isSome := by
  induction items generalizing masker with
  | nil => rfl
  | cons item rest ih =>
      unfold rewriteContents
      split
      · simpa using ih masker
      · rename_i text _
        have hstep := hf masker text.toList
        split
        · rename_i masker' hcall
          simp [hcall] at hstep
        · simpa using ih _

theorem rewriteMessages_isSome (hf : ∀ masker text, (f masker text).1.isSome)
    (messages : List ChatMessage) (masker : PiiMasker) :
    (rewriteMessages f messages masker).1.isSome := by
  induction messages generalizing masker with
  | nil => rfl
  | cons message rest ih =>
      unfold rewriteMessages
      split
      · simpa using ih masker
      · rename_i items _
        have hstep := rewriteContents_isSome hf items masker
        split
        · rename_i masker' hcall
          simp [hcall] at hstep
        · simpa using ih _

/-- Without texts everything stays as it is. -/
theorem rewriteContents_of_noText {items : List ChatContent} (h : ∀ item ∈ items, item.asText = none)
    (masker : PiiMasker) : rewriteContents f items masker = (some items, masker) := by
  induction items with
  | nil => rfl
  | cons item rest ih =>
      have hrest := ih fun item hitem => h item (List.mem_cons_of_mem _ hitem)
      simp only [rewriteContents, h item List.mem_cons_self, hrest, Option.map_some]

theorem rewriteMessages_of_noText {messages : List ChatMessage} (h : NoText messages)
    (masker : PiiMasker) : rewriteMessages f messages masker = (some messages, masker) := by
  induction messages with
  | nil => rfl
  | cons message rest ih =>
      have hrest := ih fun message hm => h message (List.mem_cons_of_mem _ hm)
      cases hcontent : message.content with
      | none => simp only [rewriteMessages, hcontent, hrest, Option.map_some]
      | some items =>
          have hitems := rewriteContents_of_noText (f := f) (h message List.mem_cons_self items hcontent)
            masker
          have hsame : { message with content := some items } = message := by rw [← hcontent]
          simp only [rewriteMessages, hcontent, hitems, hrest, Option.map_some, hsame]

/-- A property that holds after every text holds after messages with a text. -/
theorem rewriteContents_reaches (hf : ∀ masker text, P (f masker text).2)
    {items : List ChatContent} (h : ¬ ∀ item ∈ items, item.asText = none) (masker : PiiMasker) :
    P (rewriteContents f items masker).2 := by
  induction items generalizing masker with
  | nil => exact absurd (by simp) h
  | cons item rest ih =>
      unfold rewriteContents
      split
      · rename_i hnone
        exact ih (fun hrest => h (List.forall_mem_cons.2 ⟨hnone, hrest⟩)) masker
      · rename_i text _
        have hstep := hf masker text.toList
        split
        · rename_i masker' hcall
          rwa [hcall] at hstep
        · rename_i text' masker' hcall
          rw [hcall] at hstep
          exact rewriteContents_preserves (fun masker text _ => hf masker text) rest hstep

theorem rewriteMessages_reaches (hf : ∀ masker text, P (f masker text).2)
    {messages : List ChatMessage} (h : ¬ NoText messages) (masker : PiiMasker) :
    P (rewriteMessages f messages masker).2 := by
  induction messages generalizing masker with
  | nil => exact absurd (by simp [NoText]) h
  | cons message rest ih =>
      unfold rewriteMessages
      split
      · rename_i hnone
        refine ih (fun hrest => h (List.forall_mem_cons.2 ⟨fun items hitems => ?_, hrest⟩)) masker
        simp [hnone] at hitems
      · rename_i items hitems
        by_cases htext : ∀ item ∈ items, item.asText = none
        · have hrest : ¬ NoText rest := fun hrest => h (List.forall_mem_cons.2
            ⟨fun items' hitems' => by rw [hitems] at hitems'; cases hitems'; exact htext, hrest⟩)
          rw [rewriteContents_of_noText htext masker]
          exact ih hrest masker
        · have hstep := rewriteContents_reaches hf htext masker
          split
          · rename_i masker' hcall
            rwa [hcall] at hstep
          · rename_i items' masker' hcall
            rw [hcall] at hstep
            exact rewriteMessages_preserves (fun masker text _ => hf masker text) rest hstep

end Rewrite

/-! ## Entries of the masker -/

section Entries

variable {masker : PiiMasker} {text : Text} {requestId other : String}

/-- Another request's texts are masked under its own id. -/
theorem PiiMasker.mask_other (h : requestId ≠ other) :
    (masker.mask text other).2.maskMap requestId = masker.maskMap requestId := by
  unfold PiiMasker.mask
  split
  · rfl
  · exact Function.update_of_ne h _ _

/-- Unmasking stores nothing. -/
theorem PiiMasker.unmask_none (h : masker.maskMap requestId = none) :
    (masker.unmask text other).2.maskMap requestId = none := by
  unfold PiiMasker.unmask
  split
  · by_cases hid : requestId = other
    · rw [hid]
      exact Function.update_self _ _ _
    · exact (Function.update_of_ne hid _ _).trans h
  · exact h

/-- Masking stores an entry, also when nothing was replaced. -/
theorem PiiMasker.mask_entry : ((masker.mask text requestId).2.maskMap requestId).isSome := by
  obtain ⟨masked, replacements, hmask⟩ := maskPatterns_total masker.patterns text []
  unfold PiiMasker.mask
  rw [hmask]
  simp

theorem PiiMasker.mask_isSome : (masker.mask text requestId).1.isSome := by
  obtain ⟨masked, replacements, hmask⟩ := maskPatterns_total masker.patterns text []
  unfold PiiMasker.mask
  rw [hmask]
  rfl

end Entries

/-! ## The orchestrator -/

/-- The entry that a request has in the masker. -/
def GuardrailsOrchestrator.maskEntry (g : GuardrailsOrchestrator) (requestId : String) :
    Option (List Replacement) :=
  g.piiMasker.bind fun masker => masker.maskMap requestId

/-- The orchestrator runs under this configuration, with these patterns. -/
structure GuardrailsOrchestrator.Configured (g : GuardrailsOrchestrator)
    (patterns : List PiiPattern) (config : GuardrailsConfig) : Prop where
  settings : g.config = config
  masker : g.piiMasker.map PiiMasker.patterns = if config.piiEnabled then some patterns else none

theorem GuardrailsOrchestrator.configured_new (patterns : List PiiPattern) (config : GuardrailsConfig) :
    (GuardrailsOrchestrator.new patterns config).Configured patterns config := by
  refine ⟨rfl, ?_⟩
  unfold GuardrailsOrchestrator.new
  dsimp only
  split_ifs <;> rfl

section Orchestrator

variable {g : GuardrailsOrchestrator} {service : ModerationService} {requestId other : String}
  {f : PiiMasker → Text → Option Text × PiiMasker} {P : PiiMasker → Prop}

/-- Rewriting changes the masker only, and keeps what every text keeps. -/
theorem GuardrailsOrchestrator.rewrite_preserves (hf : ∀ masker text, P masker → P (f masker text).2)
    (messages : List ChatMessage) (h : ∀ masker, g.piiMasker = some masker → P masker) :
    (g.rewrite f messages).2.config = g.config
      ∧ (g.rewrite f messages).2.piiMasker.isSome = g.piiMasker.isSome
      ∧ ∀ masker, (g.rewrite f messages).2.piiMasker = some masker → P masker := by
  unfold GuardrailsOrchestrator.rewrite
  split
  · rename_i masker hpii hmasker
    refine ⟨rfl, by simp [hmasker], ?_⟩
    rintro _ ⟨⟩
    exact rewriteMessages_preserves hf messages (h masker hmasker)
  · exact ⟨rfl, rfl, h⟩

theorem GuardrailsOrchestrator.preCall_snd (g : GuardrailsOrchestrator) (service : ModerationService)
    (request : ChatCompletionRequest) (requestId : String) :
    (g.preCall service request requestId).2
      = (g.rewrite (fun masker text => masker.mask text requestId) request.messages).2 := by
  unfold GuardrailsOrchestrator.preCall
  split <;> rename_i h <;> rw [h]

/-- Masking leaves the settings and the patterns alone. -/
theorem GuardrailsOrchestrator.Configured.preCall {patterns : List PiiPattern} {config : GuardrailsConfig}
    (hg : g.Configured patterns config) (service : ModerationService) (request : ChatCompletionRequest)
    (requestId : String) : (g.preCall service request requestId).2.Configured patterns config := by
  have hmask (masker : PiiMasker) (text : Text) (h : masker.patterns = patterns) :
      (masker.mask text requestId).2.patterns = patterns := by
    unfold PiiMasker.mask
    split <;> exact h
  have hpatterns : ∀ masker, g.piiMasker = some masker → masker.patterns = patterns := by
    intro masker hmasker
    have hsame := hg.masker
    rw [hmasker] at hsame
    split_ifs at hsame with hpii
    · exact Option.some.inj hsame
    · cases hsame
  obtain ⟨hconfig, hsome, hkept⟩ := GuardrailsOrchestrator.rewrite_preserves hmask request.messages hpatterns
  rw [GuardrailsOrchestrator.preCall_snd]
  refine ⟨hconfig.trans hg.settings, ?_⟩
  rw [← hg.masker]
  cases hbefore : g.piiMasker with
  | none =>
      rw [hbefore] at hsome
      rw [Option.isNone_iff_eq_none.1 (Option.isSome_eq_false_iff.1 hsome)]
  | some masker =>
      rw [hbefore] at hsome
      obtain ⟨masker', hafter⟩ := Option.isSome_iff_exists.1 hsome
      rw [hafter, Option.map_some, Option.map_some, hkept masker' hafter, hpatterns masker hbefore]

/-- `post_call` leaves the orchestrator alone or unmasks. -/
theorem GuardrailsOrchestrator.postCall_snd (g : GuardrailsOrchestrator) (service : ModerationService)
    (response : ChatCompletionResponse) (requestId : String) :
    (g.postCall service response requestId).2 = g
      ∨ (g.postCall service response requestId).2
        = (g.rewrite (fun masker text => masker.unmask text requestId)
            (response.choices.map ChatCompletionChoice.message)).2 := by
  unfold GuardrailsOrchestrator.postCall
  dsimp only
  split
  · refine .inr ?_
    split <;> rename_i h <;> rw [h]
  · exact .inl rfl

theorem GuardrailsOrchestrator.maskEntry_eq_none_iff :
    g.maskEntry requestId = none ↔ ∀ masker, g.piiMasker = some masker → masker.maskMap requestId = none := by
  unfold GuardrailsOrchestrator.maskEntry
  cases g.piiMasker <;> simp

/-- A call of another request stores nothing under this id. -/
theorem GuardrailsOrchestrator.preCall_other (h : requestId ≠ other) {request : ChatCompletionRequest}
    (hnone : g.maskEntry requestId = none) :
    (g.preCall service request other).2.maskEntry requestId = none := by
  rw [GuardrailsOrchestrator.maskEntry_eq_none_iff] at hnone ⊢
  rw [GuardrailsOrchestrator.preCall_snd]
  exact (GuardrailsOrchestrator.rewrite_preserves
    (fun masker text hmasker => (PiiMasker.mask_other h).trans hmasker) request.messages hnone).2.2

theorem GuardrailsOrchestrator.postCall_none {response : ChatCompletionResponse}
    (hnone : g.maskEntry requestId = none) :
    (g.postCall service response other).2.maskEntry requestId = none := by
  rcases GuardrailsOrchestrator.postCall_snd g service response other with hsame | hunmasked
  · rwa [hsame]
  · rw [hunmasked]
    rw [GuardrailsOrchestrator.maskEntry_eq_none_iff] at hnone ⊢
    exact (GuardrailsOrchestrator.rewrite_preserves
      (fun masker text hmasker => PiiMasker.unmask_none hmasker) _ hnone).2.2

/-- Nothing is stored for messages without a text. -/
theorem GuardrailsOrchestrator.preCall_noText {request : ChatCompletionRequest}
    (htext : g.config.piiEnabled = true → NoText request.messages) :
    (g.preCall service request requestId).2 = g := by
  rw [GuardrailsOrchestrator.preCall_snd]
  unfold GuardrailsOrchestrator.rewrite
  split
  · rename_i masker hpii hmasker
    rw [rewriteMessages_of_noText (htext hpii)]
    cases g
    cases hmasker
    rfl
  · rfl

/-- Messages with a text leave an entry. -/
theorem GuardrailsOrchestrator.preCall_entry {request : ChatCompletionRequest}
    (hpii : g.config.piiEnabled = true) (hmasker : g.piiMasker.isSome)
    (htext : ¬ NoText request.messages) :
    ((g.preCall service request requestId).2.maskEntry requestId).isSome := by
  obtain ⟨masker, hmasker⟩ := Option.isSome_iff_exists.1 hmasker
  rw [GuardrailsOrchestrator.preCall_snd]
  unfold GuardrailsOrchestrator.rewrite GuardrailsOrchestrator.maskEntry
  rw [hpii, hmasker]
  exact rewriteMessages_reaches (P := fun masker => (masker.maskMap requestId).isSome = true)
    (fun masker text => PiiMasker.mask_entry) htext masker

/-- A service that flags nothing. -/
def quietService : ModerationService := fun _ => .ok ⟨false, .obj []⟩

theorem GuardrailsOrchestrator.rewrite_mask_isSome (g : GuardrailsOrchestrator) (requestId : String)
    (messages : List ChatMessage) :
    (g.rewrite (fun masker text => masker.mask text requestId) messages).1.isSome := by
  unfold GuardrailsOrchestrator.rewrite
  split
  · exact rewriteMessages_isSome (fun _ _ => PiiMasker.mask_isSome) _ _
  · rfl

/-- `pre_call` does not panic. -/
theorem GuardrailsOrchestrator.preCall_isSome (g : GuardrailsOrchestrator) (service : ModerationService)
    (request : ChatCompletionRequest) (requestId : String) :
    (g.preCall service request requestId).1.isSome := by
  have hsome := g.rewrite_mask_isSome requestId request.messages
  unfold GuardrailsOrchestrator.preCall
  split
  · rename_i hrewrite
    simp [hrewrite] at hsome
  · rfl

/-- `pre_call` lets a request through when nothing is flagged. -/
theorem GuardrailsOrchestrator.preCall_allowed (g : GuardrailsOrchestrator)
    (request : ChatCompletionRequest) (requestId : String) :
    ∃ messages, (g.preCall quietService request requestId).1
      = some ({ request with messages := messages }, .ok .allowed) := by
  have hmoderate : ∀ texts, g.config.moderate quietService texts = .ok .allowed := by
    intro texts
    unfold GuardrailsConfig.moderate checkModeration quietService
    split_ifs <;> rfl
  have hsome := g.rewrite_mask_isSome requestId request.messages
  unfold GuardrailsOrchestrator.preCall
  split
  · rename_i hrewrite
    simp [hrewrite] at hsome
  · rename_i messages g' hrewrite
    have hconfig : g'.config = g.config := by
      have hkept := (GuardrailsOrchestrator.rewrite_preserves (g := g) (P := fun _ => True)
        (f := fun masker text => masker.mask text requestId) (fun _ _ _ => trivial) request.messages
        fun _ _ => trivial).1
      rwa [hrewrite] at hkept
    refine ⟨messages, ?_⟩
    dsimp only
    rw [hconfig, hmoderate]
    split_ifs <;> rfl

end Orchestrator

end Godwit
