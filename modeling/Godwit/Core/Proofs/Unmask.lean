import Godwit.Core.Proofs.Guardrails
import Godwit.Core.Proofs.MaskArithmetic
import Godwit.Lib.Edits

set_option autoImplicit false

/-! # `PiiMasker::unmask` on any response

`unmask` replays the positions of the masked request on the response, whatever the response says there. Each
replacement is an edit (`unmaskReplacements_eq`), so `Layout.Placed` is the condition on the response: where an
edit is due, there must stand a placeholder of its length. -/

namespace Godwit

/-- The edit that puts the original back. -/
def Replacement.edit (r : Replacement) : TextEdit Char := ⟨r.start, r.placeholder.len, r.original⟩

theorem unmaskReplacements_eq (replacements : List Replacement) (offset : Int) (text : Text) :
    unmaskReplacements replacements offset text
      = applyEdits Char.utf8Size (replacements.map Replacement.edit) offset text := by
  induction replacements generalizing offset text with
  | nil => rfl
  | cons r rest ih =>
      rw [unmaskReplacements, List.map_cons, applyEdits]
      simp only [ih]
      rfl

/-- Every call of `replace_range` is in range, on character boundaries, and replaces a part of the response that
    is one of the placeholders; `L` is the response with a hole for each of them. -/
def OnPlaceholders (replacements : List Replacement) (response : Text) (result : Option Text) : Prop :=
  ∃ L : Layout Char,
    replay Char.utf8Size (replacements.map Replacement.edit) 0 0 (Layout.symbols response) = some L
      ∧ L.render (fun _ => true) = response ∧ result = some (L.render fun _ => false)
      ∧ ∀ q ∈ L.holes, ∃ r ∈ replacements, q.2.placeholder = r.placeholder

/-- `unmask` of this response under this request id replaces placeholders only. -/
def PiiMasker.UnmaskSafe (masker : PiiMasker) (requestId : String) (response : Text) : Prop :=
  match masker.maskMap requestId with
  | none => (masker.unmask response requestId).1 = some response
  | some replacements => OnPlaceholders replacements response (masker.unmask response requestId).1

/-- Where a replacement is due, the response shows a placeholder of the length it expects. -/
def PlaceholdersInPlace (replacements : List Replacement) (response : Text) : Prop :=
  ∃ L : Layout Char, L.render (fun _ => true) = response
    ∧ L.Placed Char.utf8Size (replacements.map Replacement.edit)
    ∧ ∀ q ∈ L.holes, ∃ r ∈ replacements, q.2.placeholder = r.placeholder

/-! ## What `mask` records -/

/-- `mask`, for every text and request id of the list. -/
def PiiMasker.maskAll (masker : PiiMasker) (calls : List (Text × String)) : PiiMasker :=
  calls.foldl (fun masker call => (masker.mask call.1 call.2).2) masker

/-- What a round records is its match, which is not empty. -/
theorem MaskRound.Records.original_ne_nil {r : MaskRound} {recorded : Replacement} (h : r.Records recorded)
    (honMatch : r.OnMatch) (hmatch : r.matchStart < r.matchEnd) : recorded.original ≠ [] := by
  obtain ⟨before, original, after, shown, -, hbefore, hend, hmasked, hstart, hstop⟩ := honMatch
  obtain ⟨hrstart, hrstop, hslice, -⟩ := h
  intro hnil
  obtain ⟨l, rest, -, -, hstop'⟩ := slice?_eq_some _ hslice
  rw [hnil, extent_nil] at hstop'
  simp only [Text.len, extent_append] at hbefore hend hstart hstop
  omega

theorem MaskRound.records_original_ne_nil {rounds : List MaskRound} {new : List Replacement}
    (h : List.Forall₂ MaskRound.Records rounds new)
    (hrounds : ∀ r ∈ rounds, r.OnMatch ∧ r.matchStart < r.matchEnd) : ∀ recorded ∈ new, recorded.original ≠ [] := by
  induction h with
  | nil => exact fun r hr => absurd hr List.not_mem_nil
  | cons hrecord _ ih =>
      obtain ⟨⟨honMatch, hne⟩, hrest⟩ := List.forall_mem_cons.1 hrounds
      exact List.forall_mem_cons.2 ⟨hrecord.original_ne_nil honMatch hne, ih hrest⟩

theorem maskRounds_onMatch (patterns : List PiiPattern) (text : Text) :
    ∀ r ∈ maskRounds patterns text, r.OnMatch ∧ r.matchStart < r.matchEnd := by
  induction patterns generalizing text with
  | nil => exact fun r hr => absurd hr List.not_mem_nil
  | cons pattern rest ih =>
      obtain ⟨honMatch, -, new, hshown, -⟩ := pattern.rounds text []
      intro r hr
      rw [maskRounds, hshown] at hr
      rcases List.mem_append.1 hr with hr | hr
      · exact ⟨(honMatch r hr).1, pattern.round_nonempty text r hr⟩
      · exact ih (pattern.shown text) r hr

/-- No entry of the masker replaces an empty text. -/
def PiiMasker.Nonempty (masker : PiiMasker) : Prop :=
  ∀ requestId replacements, masker.maskMap requestId = some replacements → ∀ r ∈ replacements, r.original ≠ []

theorem PiiMasker.nonempty_new (patterns : List PiiPattern) : (PiiMasker.new patterns).Nonempty := by
  intro requestId replacements h
  exact absurd h (Option.some_ne_none replacements).symm

theorem PiiMasker.Nonempty.mask {masker : PiiMasker} (h : masker.Nonempty) (text : Text) (requestId : String) :
    (masker.mask text requestId).2.Nonempty := by
  intro other replacements hentry r hr
  by_cases hid : other = requestId
  · subst hid
    obtain ⟨masked, new, hmask, hrecords⟩ := maskRounds_records masker.patterns text []
    have hnew : replacements = new := by
      simp only [PiiMasker.mask, hmask, Function.update_self, List.nil_append] at hentry
      exact (Option.some.inj hentry).symm
    subst hnew
    exact MaskRound.records_original_ne_nil hrecords (maskRounds_onMatch masker.patterns text) r hr
  · rw [PiiMasker.mask_other hid] at hentry
    exact h other replacements hentry r hr

theorem PiiMasker.Nonempty.maskAll {masker : PiiMasker} (h : masker.Nonempty) (calls : List (Text × String)) :
    (masker.maskAll calls).Nonempty := by
  induction calls generalizing masker with
  | nil => exact h
  | cons call calls ih => exact ih (h.mask call.1 call.2)

/-! ## The condition -/

theorem onPlaceholders_iff {replacements : List Replacement} (hne : ∀ r ∈ replacements, r.original ≠ [])
    (response : Text) :
    OnPlaceholders replacements response (unmaskReplacements replacements 0 response)
      ↔ PlaceholdersInPlace replacements response := by
  constructor
  · rintro ⟨L, hrun, htext, -, hholes⟩
    have hzero : Layout.growth Char.utf8Size (fun _ => true) (Layout.symbols response) = 0 :=
      Layout.growth_of_holes_nil Char.utf8Size _ (Layout.symbols_holes response)
    have hplaced := (@Layout.Placed.init Char Char.utf8Size response).replay Char.utf8Size_pos
      (by rw [hzero]; exact hrun)
    exact ⟨L, htext, hplaced.1, hholes⟩
  · rintro ⟨L, htext, hplaced, hholes⟩
    have htexts : ∀ e ∈ replacements.map Replacement.edit, e.text ≠ [] := by
      intro e he
      obtain ⟨r, hr, rfl⟩ := List.mem_map.1 he
      exact hne r hr
    obtain ⟨L', hrun, hL'⟩ := hplaced.replay_symbols Char.utf8Size_pos htexts
    rw [htext] at hrun
    have hzero : Layout.growth Char.utf8Size (fun _ => true) (Layout.symbols response) = 0 :=
      Layout.growth_of_holes_nil Char.utf8Size _ (Layout.symbols_holes response)
    obtain ⟨-, hshown, happly⟩ := (@Layout.Placed.init Char Char.utf8Size response).replay Char.utf8Size_pos
      (by rw [hzero]; exact hrun)
    rw [hzero, Layout.symbols_render] at happly
    rw [Layout.symbols_render] at hshown
    exact ⟨L', hrun, hshown, by rw [unmaskReplacements_eq]; exact happly, by rwa [hL']⟩

/-- After any calls of `mask`, `unmask` of a response replaces placeholders only, exactly when the response shows
    placeholders where the replacements of the request are due. -/
theorem PiiMasker.unmask_safe_iff (patterns : List PiiPattern) (calls : List (Text × String)) (requestId : String)
    (response : Text) :
    ((PiiMasker.new patterns).maskAll calls).UnmaskSafe requestId response
      ↔ ∀ replacements, ((PiiMasker.new patterns).maskAll calls).maskMap requestId = some replacements →
          PlaceholdersInPlace replacements response := by
  have hnonempty := (PiiMasker.nonempty_new patterns).maskAll calls
  generalize (PiiMasker.new patterns).maskAll calls = masker at hnonempty
  unfold PiiMasker.UnmaskSafe PiiMasker.unmask
  cases hentry : masker.maskMap requestId with
  | none => simp
  | some replacements =>
      simp only [Option.some.injEq, forall_eq']
      exact onPlaceholders_iff (hnonempty requestId replacements hentry) response

/-- A response that is shorter than the request was: the placeholder of the e-mail address was at offset 3. -/
theorem PiiMasker.unmask_unsafe :
    ¬ ((PiiMasker.new asciiTables.defaultPatterns).maskAll [("to ann@b.co".toList, "req")]).UnmaskSafe "req"
        "ok".toList := by
  have hpanic : (((PiiMasker.new asciiTables.defaultPatterns).maskAll [("to ann@b.co".toList, "req")]).unmask
      "ok".toList "req").1 = none := by
    decide +kernel
  intro hsafe
  unfold PiiMasker.UnmaskSafe at hsafe
  rw [hpanic] at hsafe
  split at hsafe
  · exact Option.some_ne_none _ hsafe.symm
  · obtain ⟨L, -, -, hresult, -⟩ := hsafe
    exact Option.some_ne_none _ hresult.symm

end Godwit
