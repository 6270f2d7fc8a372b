import Godwit.Core.Proofs.DefaultPatterns

set_option autoImplicit false

/-! # The arithmetic of `PiiMasker::mask`

Offsets are `usize` in the source, and every round of the loop subtracts three times. The ranges are always
those of the matches (`roundsOf_pieces`), but the last subtraction takes the length of the placeholder from that
of the match: it stays above zero exactly when no match is shorter than what replaces it. -/

namespace Godwit

/-! ## Rounds -/

/-- A round of the loop over the matches of a pattern: the match, in the text that was searched, and the offset
    and the string that the round finds. -/
structure MaskRound where
  placeholder : Text
  searched : Text
  matchStart : Nat
  matchEnd : Nat
  offset : Int
  masked : Text
  deriving DecidableEq, Repr

/-- The start of the match in the text that was masked so far. -/
def MaskRound.start (r : MaskRound) : Int := r.matchStart - r.offset

/-- The end of the match in that text. -/
def MaskRound.stop (r : MaskRound) : Int := r.matchEnd - r.offset

/-- What the round adds to the offset. -/
def MaskRound.shrinkage (r : MaskRound) : Int := r.stop - r.start - r.placeholder.len

/-- The rounds of the loop over the matches of one pattern. -/
def matchRounds (placeholder searched : Text) : List (Nat × Nat) → Int → Text → List MaskRound
  | [], _, _ => []
  | (matchStart, matchEnd) :: rest, offset, masked =>
    let round : MaskRound := ⟨placeholder, searched, matchStart, matchEnd, offset, masked⟩
    round :: match replaceRange? Char.utf8Size masked round.start.toNat round.stop.toNat placeholder with
      | none => []
      | some masked => matchRounds placeholder searched rest (offset + round.shrinkage) masked

/-- The rounds of `mask`. -/
def maskRounds : List PiiPattern → Text → List MaskRound
  | [], _ => []
  | pattern :: rest, text =>
    matchRounds pattern.replacement text (pattern.findIter text) 0 text
      ++ match maskMatches pattern.replacement (pattern.findIter text) 0 text [] with
        | none => []
        | some (masked, _) => maskRounds rest masked

/-- The replacement that the round records. -/
def MaskRound.Records (r : MaskRound) (recorded : Replacement) : Prop :=
  recorded.start = r.start.toNat ∧ recorded.stop = r.stop.toNat
    ∧ slice? Char.utf8Size r.masked recorded.start recorded.stop = some recorded.original
    ∧ recorded.placeholder = r.placeholder

/-- None of the three subtractions goes below zero. -/
def MaskRound.NoUnderflow (r : MaskRound) : Prop := 0 ≤ r.start ∧ 0 ≤ r.stop ∧ 0 ≤ r.shrinkage

instance (r : MaskRound) : Decidable r.NoUnderflow :=
  inferInstanceAs (Decidable (0 ≤ r.start ∧ 0 ≤ r.stop ∧ 0 ≤ r.shrinkage))

/-- The range of the round lies in the string, and covers the text of the match there: up to the match the
    string may have changed, from it on it is as it was searched. -/
def MaskRound.OnMatch (r : MaskRound) : Prop :=
  ∃ before original after shown, r.searched = before ++ original ++ after ∧ (before.len : Int) = r.matchStart
    ∧ ((before ++ original).len : Int) = r.matchEnd ∧ r.masked = shown ++ original ++ after
    ∧ (shown.len : Int) = r.start ∧ ((shown ++ original).len : Int) = r.stop

/-! ## The pieces of a text -/

/-- A text cut at the matches that are found in it, the text beginning at this offset. -/
def piecesOf : List (Nat × Nat) → Nat → Text → List (Piece Char)
  | [], _, text => text.map .kept
  | (matchStart, matchEnd) :: rest, pos, text =>
    match splitAt? Char.utf8Size text (matchStart - pos) with
    | none => text.map .kept
    | some (kept, tail) =>
      match splitAt? Char.utf8Size tail (matchEnd - matchStart) with
      | none => text.map .kept
      | some (found, later) => kept.map .kept ++ .found found :: piecesOf rest matchEnd later

/-- The text with the replacement for every match of the pattern. -/
def PiiPattern.shown (pattern : PiiPattern) (text : Text) : Text :=
  shownOf pattern.replacement (piecesOf (pattern.findIter text) 0 text)

/-- No match is shorter than its replacement, for patterns that are applied one after another. -/
def NoShortMatch : List PiiPattern → Text → Prop
  | [], _ => True
  | pattern :: rest, text =>
    (∀ m ∈ pattern.findIter text, pattern.replacement.len ≤ m.2 - m.1) ∧ NoShortMatch rest (pattern.shown text)

theorem spansOf_kept (kept : Text) (pos : Nat) (pieces : List (Piece Char)) :
    spansOf pos (kept.map .kept ++ pieces) = spansOf (pos + kept.len) pieces := by
  induction kept generalizing pos with
  | nil => rfl
  | cons c kept ih =>
      rw [List.map_cons, List.cons_append, spansOf, ih]
      simp [Text.len, Nat.add_assoc]

theorem spansOf_allKept (kept : Text) (pos : Nat) : spansOf pos (kept.map .kept) = [] := by
  have h := spansOf_kept kept pos []
  rwa [List.append_nil] at h

/-- The pieces are the text, and their ranges are the matches. -/
theorem piecesOf_spec (found : List (Nat × Nat)) (before text : Text) (hne : ∀ m ∈ found, m.1 < m.2)
    (hslice : ∀ m ∈ found, (slice? Char.utf8Size (before ++ text) m.1 m.2).isSome)
    (hordered : found.Pairwise fun m m' => m.2 ≤ m'.1) (hfrom : ∀ m ∈ found, before.len ≤ m.1) :
    textOf (piecesOf found before.len text) = text
      ∧ spansOf before.len (piecesOf found before.len text) = found := by
  induction found generalizing before text with
  | nil => exact ⟨by rw [piecesOf, textOf_kept], by rw [piecesOf, spansOf_allKept]⟩
  | cons m rest ih =>
      obtain ⟨kept, original, later, rfl, hstart, hstop⟩ :=
        match_in_tail (hslice m List.mem_cons_self) (hfrom m List.mem_cons_self)
      obtain ⟨matchStart, matchEnd⟩ := m
      simp only at hstart hstop
      have hkept : splitAt? Char.utf8Size (kept ++ original ++ later) (matchStart - before.len)
          = some (kept, original ++ later) := by
        have hsize : matchStart - before.len = Text.len kept := by omega
        rw [List.append_assoc, hsize]
        exact splitAt?_append Char.utf8Size Char.utf8Size_pos kept _
      have hfound : splitAt? Char.utf8Size (original ++ later) (matchEnd - matchStart) = some (original, later) := by
        have hsize : matchEnd - matchStart = Text.len original := by omega
        rw [hsize]
        exact splitAt?_append Char.utf8Size Char.utf8Size_pos original later
      have hafter : Text.len (before ++ kept ++ original) = matchEnd := by
        rw [hstop, hstart]
        simp [Text.len, Nat.add_assoc]
      obtain ⟨htext, hspans⟩ := ih (before ++ kept ++ original) later
        (fun m hm => hne m (List.mem_cons_of_mem _ hm))
        (fun m hm => by simpa using hslice m (List.mem_cons_of_mem _ hm)) (List.pairwise_cons.1 hordered).2
        (fun m hm => hafter ▸ (List.pairwise_cons.1 hordered).1 m hm)
      rw [hafter] at htext hspans
      simp only [piecesOf, hkept, hfound]
      refine ⟨?_, ?_⟩
      · rw [textOf_append, textOf_kept, textOf_cons, Piece.text, htext, List.append_assoc]
      · rw [spansOf_kept, ← hstart, spansOf, ← hstop, hspans]

theorem PiiPattern.piecesOf_spec (pattern : PiiPattern) (text : Text) :
    textOf (piecesOf (pattern.findIter text) 0 text) = text
      ∧ spansOf 0 (piecesOf (pattern.findIter text) 0 text) = pattern.findIter text := by
  have hvalid := pattern.findIter_valid text
  exact Godwit.piecesOf_spec (pattern.findIter text) [] text hvalid.nonempty hvalid.boundary hvalid.ordered
    (by simp [Text.len])

/-! ## What a round finds -/

/-- Every round is on its match, the rounds are those of the matches, and each records its replacement. -/
theorem matchRounds_pieces (placeholder : Text) (pieces : List (Piece Char)) (before shown : Text) (offset : Int)
    (replacements : List Replacement) (hoffset : before.len - offset = shown.len) :
    (∀ r ∈ matchRounds placeholder (before ++ textOf pieces) (spansOf before.len pieces) offset
        (shown ++ textOf pieces), r.OnMatch ∧ r.placeholder = placeholder)
      ∧ (matchRounds placeholder (before ++ textOf pieces) (spansOf before.len pieces) offset
          (shown ++ textOf pieces)).map (fun r => (r.matchStart, r.matchEnd)) = spansOf before.len pieces
      ∧ ∃ new, maskMatches placeholder (spansOf before.len pieces) offset (shown ++ textOf pieces) replacements
            = some (shown ++ shownOf placeholder pieces, replacements ++ new)
          ∧ List.Forall₂ MaskRound.Records (matchRounds placeholder (before ++ textOf pieces)
              (spansOf before.len pieces) offset (shown ++ textOf pieces)) new := by
  induction pieces generalizing before shown offset replacements with
  | nil => exact ⟨by simp [spansOf, matchRounds], rfl, [], by simp [spansOf, maskMatches], .nil⟩
  | cons piece rest ih =>
      cases piece with
      | kept c =>
          have hlen : Text.len (before ++ [c]) = before.len + c.utf8Size := by simp [Text.len]
          have hlen' : Text.len (shown ++ [c]) = shown.len + c.utf8Size := by simp [Text.len]
          have hrest := ih (before ++ [c]) (shown ++ [c]) offset replacements (by omega)
          rw [hlen] at hrest
          simpa [spansOf, Piece.text, Piece.shown] using hrest
      | found m =>
          have hlen : Text.len (before ++ m) = before.len + Text.len m := by simp [Text.len]
          have hshown : Text.len (shown ++ placeholder) = shown.len + placeholder.len := by simp [Text.len]
          have hstart : (before.len : Int) - offset = shown.len := hoffset
          have hstop : ((before.len + Text.len m : Nat) : Int) - offset = shown.len + Text.len m := by omega
          let recorded : Replacement := ⟨shown.len, shown.len + Text.len m, m, placeholder⟩
          have hoffset' : offset + ((((before.len + Text.len m : Nat) : Int) - offset)
              - ((before.len : Int) - offset) - placeholder.len)
                = offset + (((shown.len + Text.len m : Nat) : Int) - shown.len - placeholder.len) := by omega
          obtain ⟨honMatch, hspans, new, hmask, hrecords⟩ := ih (before ++ m) (shown ++ placeholder)
            (offset + (((shown.len + Text.len m : Nat) : Int) - shown.len - placeholder.len))
            (replacements ++ [recorded]) (by omega)
          rw [hlen] at honMatch hspans hmask hrecords
          have hslice : slice? Char.utf8Size (shown ++ m ++ textOf rest) shown.len (shown.len + Text.len m)
              = some m := slice?_append Char.utf8Size Char.utf8Size_pos shown m (textOf rest)
          have hreplace : replaceRange? Char.utf8Size (shown ++ m ++ textOf rest) shown.len
              (shown.len + Text.len m) placeholder = some (shown ++ placeholder ++ textOf rest) :=
            replaceRange?_append Char.utf8Size Char.utf8Size_pos shown m (textOf rest) placeholder
          have hstart' : ((before.len : Int) - offset).toNat = shown.len := by omega
          have hstop' : (((before.len + Text.len m : Nat) : Int) - offset).toNat = shown.len + Text.len m := by
            omega
          rw [spansOf, matchRounds, maskMatches, textOf_cons, Piece.text, ← List.append_assoc before m,
            ← List.append_assoc shown m]
          simp only [MaskRound.start, MaskRound.stop, MaskRound.shrinkage, hstart', hstop', hslice, hreplace,
            hoffset', Option.bind_eq_bind, Option.bind_some]
          refine ⟨List.forall_mem_cons.2 ⟨⟨?_, rfl⟩, honMatch⟩, ?_, recorded :: new, ?_,
            .cons ⟨hstart'.symm, hstop'.symm, hslice, rfl⟩ hrecords⟩
          · refine ⟨before, m, textOf rest, shown, rfl, rfl, by rw [hlen], rfl, hstart.symm, ?_⟩
            simp only [MaskRound.stop]
            rw [hstop]
            simp [Text.len]
          · rw [List.map_cons, hspans]
          · rw [hmask, shownOf_cons, Piece.shown]
            simp

/-- A round underflows exactly when its match is shorter than the placeholder. -/
theorem MaskRound.OnMatch.noUnderflow_iff {r : MaskRound} (h : r.OnMatch) :
    r.NoUnderflow ↔ r.placeholder.len ≤ r.matchEnd - r.matchStart := by
  obtain ⟨before, original, after, shown, -, hbefore, hend, -, hstart, hstop⟩ := h
  simp only [Text.len, extent_append] at hbefore hend hstart hstop ⊢
  unfold MaskRound.NoUnderflow MaskRound.shrinkage
  rw [← hstart, ← hstop]
  simp only [Text.len]
  push_cast at hend ⊢
  omega

/-- The loop over the matches of a pattern. -/
theorem PiiPattern.rounds (pattern : PiiPattern) (text : Text) (replacements : List Replacement) :
    (∀ r ∈ matchRounds pattern.replacement text (pattern.findIter text) 0 text,
        r.OnMatch ∧ r.placeholder = pattern.replacement)
      ∧ (matchRounds pattern.replacement text (pattern.findIter text) 0 text).map
          (fun r => (r.matchStart, r.matchEnd)) = pattern.findIter text
      ∧ ∃ new, maskMatches pattern.replacement (pattern.findIter text) 0 text replacements
            = some (pattern.shown text, replacements ++ new)
          ∧ List.Forall₂ MaskRound.Records
              (matchRounds pattern.replacement text (pattern.findIter text) 0 text) new := by
  obtain ⟨htext, hspans⟩ := pattern.piecesOf_spec text
  have hrounds := matchRounds_pieces pattern.replacement (piecesOf (pattern.findIter text) 0 text) [] [] 0
    replacements (by simp [Text.len])
  rw [List.nil_append, htext, show Text.len [] = 0 from rfl, hspans] at hrounds
  exact hrounds

/-- A match is never empty. -/
theorem PiiPattern.round_nonempty (pattern : PiiPattern) (text : Text) :
    ∀ r ∈ matchRounds pattern.replacement text (pattern.findIter text) 0 text, r.matchStart < r.matchEnd := by
  intro r hr
  have hm : (r.matchStart, r.matchEnd) ∈ pattern.findIter text := by
    rw [← (pattern.rounds text []).2.1]
    exact List.mem_map.2 ⟨r, hr, rfl⟩
  exact (pattern.findIter_valid text).nonempty _ hm

/-- What `mask` records is what its rounds record. -/
theorem maskRounds_records (patterns : List PiiPattern) (text : Text) (replacements : List Replacement) :
    ∃ masked new, maskPatterns patterns text replacements = some (masked, replacements ++ new)
      ∧ List.Forall₂ MaskRound.Records (maskRounds patterns text) new := by
  induction patterns generalizing text replacements with
  | nil => exact ⟨text, [], by rw [maskPatterns, List.append_nil], .nil⟩
  | cons pattern rest ih =>
      obtain ⟨-, -, first, hfirst, hrecords⟩ := pattern.rounds text replacements
      obtain ⟨-, -, first', hshown, -⟩ := pattern.rounds text []
      obtain ⟨masked, later, hlater, hrecords'⟩ := ih (pattern.shown text) (replacements ++ first)
      refine ⟨masked, first ++ later, ?_, ?_⟩
      · rw [maskPatterns_cons hfirst, hlater, List.append_assoc]
      · rw [maskRounds, hshown]
        exact List.rel_append hrecords hrecords'

/-! ## The condition -/

/-- Every round of `mask` is on its match, and none underflows exactly when no match is shorter than its
    replacement. -/
theorem PiiMasker.mask_noUnderflow_iff (masker : PiiMasker) (text : Text) :
    (∀ r ∈ maskRounds masker.patterns text, r.NoUnderflow ∧ r.OnMatch) ↔ NoShortMatch masker.patterns text := by
  generalize masker.patterns = patterns
  induction patterns generalizing text with
  | nil => simp [maskRounds, NoShortMatch]
  | cons pattern rest ih =>
      obtain ⟨honMatch, hranges, new, hshown, -⟩ := pattern.rounds text []
      have hfirst : (∀ r ∈ matchRounds pattern.replacement text (pattern.findIter text) 0 text,
          r.NoUnderflow ∧ r.OnMatch) ↔ ∀ m ∈ pattern.findIter text, pattern.replacement.len ≤ m.2 - m.1 := by
        constructor
        · intro hall m hm
          rw [← hranges] at hm
          obtain ⟨r, hr, rfl⟩ := List.mem_map.1 hm
          have hlong := (honMatch r hr).1.noUnderflow_iff.1 (hall r hr).1
          rwa [(honMatch r hr).2] at hlong
        · intro hlong r hr
          refine ⟨(honMatch r hr).1.noUnderflow_iff.2 ?_, (honMatch r hr).1⟩
          rw [(honMatch r hr).2]
          refine hlong (r.matchStart, r.matchEnd) ?_
          rw [← hranges]
          exact List.mem_map.2 ⟨r, hr, rfl⟩
      rw [maskRounds, hshown, NoShortMatch, ← ih, ← hfirst]
      exact List.forall_mem_append

/-- The shortest addresses have six bytes, and their placeholder has seven. -/
theorem PiiMasker.mask_underflows :
    ¬ ∀ r ∈ maskRounds asciiTables.defaultPatterns "a@b.co".toList, r.NoUnderflow := by
  decide +kernel

end Godwit
