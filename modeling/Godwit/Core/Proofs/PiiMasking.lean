import Mathlib.Tactic.Linarith
import Godwit.Core.PiiMasking

set_option autoImplicit false

/-! # When unmasking gives the text back

`mask` records its replacements pattern by pattern and `unmask` replays them in that order with one
running offset. `redact` is the same text seen as a layout with numbered holes. If every match lies
in a literal and no hole drifts (`Layout.Balanced`), `unmask` closes every hole where it stands and
`PiiMasker.unmask_mask` is the round trip. `unmask_mask_crossed` is a text on which two patterns
match in the wrong order. -/

namespace Godwit

/-! ## The text as a layout -/

/-- Cut a hole for every match of one pattern. -/
def redactMatches (placeholder : Text) :
    List (Nat × Nat) → Int → Layout Char → Nat → Option (Layout Char × Nat)
  | [], _, L, n => some (L, n)
  | (matchStart, matchEnd) :: rest, offset, L, n => do
    let start := (matchStart - offset).toNat
    let stop := (matchEnd - offset).toNat
    let L ← L.cut Char.utf8Size placeholder n start stop
    redactMatches placeholder rest (offset + (stop - start - placeholder.len)) L (n + 1)

/-- The patterns in order, on a layout that keeps the originals. -/
def redactPatterns : List PiiPattern → Layout Char → Nat → Option (Layout Char × Nat)
  | [], L, n => some (L, n)
  | pattern :: rest, L, n => do
    let (L, n) ←
      redactMatches pattern.replacement (pattern.findIter (L.render fun _ => true)) 0 L n
    redactPatterns rest L n

/-- The text with a hole for every match, numbered in the order the matches are found. `none`: a
    match covers part of a placeholder that an earlier pattern put there. -/
def redact (patterns : List PiiPattern) (text : Text) : Option (Layout Char) :=
  (redactPatterns patterns [.lit text] 0).map Prod.fst

/-! ## What the recorded replacements say about the layout -/

/-- What the layout keeps of a replacement. -/
def Replacement.hole (r : Replacement) : Hole Char := ⟨r.original, r.placeholder⟩

/-- The replacements recorded so far are the holes of `L`, each with the place it was opened at. -/
structure Recorded (text masked : Text) (replacements : List Replacement) (L : Layout Char) :
    Prop where
  original : L.render (fun _ => false) = text
  masked : L.render (fun _ => true) = masked
  holes : L.holes.Perm (replacements.zipIdx.map fun p => (p.2, p.1.hole))
  start : ∀ k r, replacements[k]? = some r →
    r.start = extent Char.utf8Size (Layout.render (fun j => decide (j < k)) (L.before k))

theorem filter_zipIdx_lt {β : Type} (xs : List β) (n k : Nat) :
    (xs.zipIdx n).filter (fun p => decide (p.2 < n + k)) = (xs.take k).zipIdx n := by
  induction xs generalizing n k with
  | nil => simp
  | cons x xs ih =>
      cases k with
      | zero =>
          rw [List.take_zero, List.zipIdx_nil, List.filter_eq_nil_iff]
          intro p hp
          have := List.le_snd_of_mem_zipIdx hp
          simpa using this
      | succ k =>
          have hih := ih (n + 1) k
          rw [show n + 1 + k = n + (k + 1) by omega] at hih
          simp [List.zipIdx_cons, hih]

section Recorded

variable {text masked : Text} {replacements : List Replacement} {L : Layout Char}

theorem Recorded.numbers (h : Recorded text masked replacements L) :
    (L.holes.map Prod.fst).Perm (List.range replacements.length) := by
  refine (h.holes.map Prod.fst).trans ?_
  rw [List.map_map]
  have hfst : (Prod.fst ∘ fun p : Replacement × Nat => (p.2, p.1.hole)) = Prod.snd := rfl
  rw [hfst, List.zipIdx_map_snd, List.range_eq_range']

theorem Recorded.nodup (h : Recorded text masked replacements L) :
    (L.holes.map Prod.fst).Nodup :=
  h.numbers.nodup_iff.2 List.nodup_range

theorem Recorded.number_lt (h : Recorded text masked replacements L) {q : Nat × Hole Char}
    (hq : q ∈ L.holes) : q.1 < replacements.length := by
  have hmem := h.numbers.subset (List.mem_map_of_mem hq)
  simpa using hmem

theorem Recorded.mem (h : Recorded text masked replacements L) {k : Nat} {r : Replacement}
    (hk : replacements[k]? = some r) : (k, r.hole) ∈ L.holes := by
  refine h.holes.symm.subset (List.mem_map.2 ⟨(r, k), ?_, rfl⟩)
  exact List.mk_mem_zipIdx_iff_getElem?.2 hk

/-- The growth of the holes before `k` is the offset that `unmask` has accumulated. -/
theorem Recorded.growth (h : Recorded text masked replacements L) (k : Nat) :
    Layout.growth Char.utf8Size (fun j => decide (j < k)) L
      = ((replacements.take k).map fun r => r.hole.growth Char.utf8Size).sum := by
  have hperm := ((h.holes.filter fun q => decide (q.1 < k)).map
    fun q => q.2.growth Char.utf8Size).sum_eq
  have hfilter := filter_zipIdx_lt replacements 0 k
  rw [Nat.zero_add] at hfilter
  rw [Layout.growth, hperm, List.filter_map, List.map_map]
  simp only [Function.comp_def, hfilter]
  rw [← List.zipIdx_map_fst 0 (replacements.take k), List.map_map]
  simp [Function.comp_def]

/-- Nothing is recorded for a text that is one literal. -/
theorem Recorded.init (text : Text) : Recorded text text [] [.lit text] where
  original := by simp [Segment.render]
  masked := by simp [Segment.render]
  holes := by simp [Layout.holes]
  start := by simp

/-- One replacement of `mask` opens the next hole. -/
theorem Recorded.cut (h : Recorded text masked replacements L) {placeholder : Text}
    {start stop : Nat} (hle : start ≤ stop) {L' : Layout Char}
    (hcut : L.cut Char.utf8Size placeholder replacements.length start stop = some L') :
    ∃ original masked', slice? Char.utf8Size masked start stop = some original ∧
      replaceRange? Char.utf8Size masked start stop placeholder = some masked' ∧
      Recorded text masked' (replacements ++ [⟨start, stop, original, placeholder⟩]) L' := by
  obtain ⟨P, l, original, r, Q, rfl, rfl, hstart, hstop⟩ :=
    Layout.cut_eq_some Char.utf8Size hcut hle
  have hmasked : masked = Layout.render (fun _ => true) P ++ l ++ original
      ++ (r ++ Layout.render (fun _ => true) Q) := by
    rw [← h.masked]
    simp [Segment.render]
  have hplace : start = extent Char.utf8Size (Layout.render (fun _ => true) P ++ l) := by
    rw [hstart, extent_append]
  refine ⟨original, Layout.render (fun _ => true) P ++ l ++ placeholder
    ++ (r ++ Layout.render (fun _ => true) Q), ?_, ?_, ?_, ?_, ?_, ?_⟩
  · rw [hmasked, hstop, hplace]
    exact slice?_append _ Char.utf8Size_pos _ _ _
  · rw [hmasked, hstop, hplace]
    exact replaceRange?_append _ Char.utf8Size_pos _ _ _ _
  · rw [← h.original]
    simp [Segment.render]
  · simp [Segment.render]
  · refine Layout.holes_opened.trans ?_
    rw [List.zipIdx_append, List.map_append]
    refine (h.holes.cons _).trans ?_
    simpa [Replacement.hole] using (List.perm_append_singleton _ _).symm
  · intro k rep hk
    rw [List.getElem?_append] at hk
    split_ifs at hk with hlt
    · -- an older hole: the new one shows its original on its left
      have hn : decide (replacements.length < k) = false := decide_eq_false (by omega)
      rw [h.start k rep hk, Layout.render_before_opened hn (by omega)]
    · -- the new hole: every hole on its left is masked
      obtain ⟨hk0, rfl⟩ : k - replacements.length = 0 ∧ _ = rep := by
        simpa [List.getElem?_singleton] using hk
      obtain rfl : k = replacements.length := by omega
      have hP : ∀ q ∈ P.holes, q.1 < replacements.length := fun q hq =>
        h.number_lt (by simp [hq])
      rw [Layout.before_opened (fun hq hmem => absurd (hP _ hmem) (lt_irrefl _))]
      have hall : Layout.render (fun j => decide (j < replacements.length)) P
          = Layout.render (fun _ => true) P :=
        Layout.render_congr fun q hq => by simpa using hP q hq
      simp only [Layout.render_append, hall, hplace]
      simp [Segment.render]

end Recorded

/-! ## mask -/

section Mask

variable {text masked : Text} {replacements : List Replacement} {L L' : Layout Char} {n' : Nat}

/-- The loop over one pattern's matches, when every match lies in a literal. -/
theorem Recorded.maskMatches {placeholder : Text} (found : List (Nat × Nat))
    (hfound : ∀ m ∈ found, m.1 ≤ m.2) (offset : Int) (h : Recorded text masked replacements L)
    (hred : redactMatches placeholder found offset L replacements.length = some (L', n')) :
    ∃ masked' replacements', Recorded text masked' replacements' L' ∧
      n' = replacements'.length ∧
      Godwit.maskMatches placeholder found offset masked replacements
        = some (masked', replacements') := by
  induction found generalizing offset masked replacements L with
  | nil =>
      obtain ⟨rfl, rfl⟩ : L = L' ∧ replacements.length = n' := by simpa [redactMatches] using hred
      exact ⟨masked, replacements, h, rfl, rfl⟩
  | cons m rest ih =>
      obtain ⟨matchStart, matchEnd⟩ := m
      simp only [redactMatches, Option.bind_eq_bind, Option.bind_eq_some_iff] at hred
      obtain ⟨L₁, hcut, hrest⟩ := hred
      have hle : matchStart ≤ matchEnd := hfound _ List.mem_cons_self
      obtain ⟨original, masked₁, hslice, hreplace, h₁⟩ := h.cut (by omega) hcut
      rw [← List.length_singleton, ← List.length_append] at hrest
      obtain ⟨masked', replacements', h', hn', hmask⟩ :=
        ih (fun m hm => hfound m (List.mem_cons_of_mem _ hm)) _ h₁ hrest
      refine ⟨masked', replacements', h', hn', ?_⟩
      simp only [Godwit.maskMatches, hslice, hreplace]
      exact hmask

theorem Recorded.maskPatterns (patterns : List PiiPattern)
    (h : Recorded text masked replacements L)
    (hred : redactPatterns patterns L replacements.length = some (L', n')) :
    ∃ masked' replacements', Recorded text masked' replacements' L' ∧
      Godwit.maskPatterns patterns masked replacements = some (masked', replacements') := by
  induction patterns generalizing masked replacements L with
  | nil =>
      obtain ⟨rfl, -⟩ : L = L' ∧ replacements.length = n' := by simpa [redactPatterns] using hred
      exact ⟨masked, replacements, h, rfl⟩
  | cons pattern rest ih =>
      simp only [redactPatterns, Option.bind_eq_bind, Option.bind_eq_some_iff, h.masked] at hred
      obtain ⟨⟨L₁, n₁⟩, hmatches, hrest⟩ := hred
      have hfound : ∀ m ∈ pattern.findIter masked, m.1 ≤ m.2 := fun m hm =>
        ((pattern.findIter_valid masked).nonempty m hm).le
      obtain ⟨masked₁, replacements₁, h₁, rfl, hmask⟩ := h.maskMatches _ hfound 0 hmatches
      obtain ⟨masked', replacements', h', hmask'⟩ := ih h₁ hrest
      refine ⟨masked', replacements', h', ?_⟩
      simp only [Godwit.maskPatterns, hmask]
      exact hmask'

end Mask

/-! ## unmask -/

/-- Replaying the replacements from the `k`-th on, when the earlier holes are closed. -/
theorem Recorded.unmaskReplacements {text masked : Text} {replacements : List Replacement}
    {L : Layout Char} (h : Recorded text masked replacements L)
    (hbal : L.Balanced Char.utf8Size) (earlier later : List Replacement)
    (hsplit : replacements = earlier ++ later) :
    Godwit.unmaskReplacements later
        (-(earlier.map fun r => r.hole.growth Char.utf8Size).sum)
        (L.render fun j => decide (earlier.length ≤ j))
      = some text := by
  induction later generalizing earlier with
  | nil =>
      have hnone : L.render (fun j => decide (earlier.length ≤ j)) = L.render fun _ => false := by
        refine Layout.render_congr fun q hq => ?_
        have := h.number_lt hq
        simp only [hsplit, List.append_nil] at this
        simpa using this
      rw [Godwit.unmaskReplacements, hnone, h.original]
  | cons r later ih =>
      have hk : replacements[earlier.length]? = some r := by simp [hsplit]
      have hmem := h.mem hk
      -- the place the running offset points at is where the hole stands
      have hplace := (Layout.place_eq_iff Char.utf8Size hmem h.nodup).2 (hbal _ hmem)
      have hgrowth := h.growth earlier.length
      rw [hsplit, List.take_left] at hgrowth
      have hstart := h.start _ r hk
      have hclose := Layout.close_hole Char.utf8Size Char.utf8Size_pos hmem h.nodup
      have hnext := ih (earlier ++ [r]) (by simp [hsplit])
      rw [hgrowth, ← hstart] at hplace
      simp only [Godwit.unmaskReplacements]
      rw [show (r.start : Int) + -(earlier.map fun r => r.hole.growth Char.utf8Size).sum
          = extent Char.utf8Size (Layout.render (fun j => decide (earlier.length ≤ j))
              (L.before earlier.length)) by omega,
        if_neg (by omega), Int.toNat_natCast]
      have hclose' : replaceRange? Char.utf8Size (L.render fun j => decide (earlier.length ≤ j))
          (extent Char.utf8Size (Layout.render (fun j => decide (earlier.length ≤ j))
            (L.before earlier.length)))
          (extent Char.utf8Size (Layout.render (fun j => decide (earlier.length ≤ j))
            (L.before earlier.length)) + r.placeholder.len) r.original
          = some (L.render fun j => decide (earlier.length + 1 ≤ j)) := hclose
      rw [hclose']
      have hoffset : -(earlier.map fun r => r.hole.growth Char.utf8Size).sum
          + (r.original.len - r.placeholder.len : Int)
          = -((earlier ++ [r]).map fun r => r.hole.growth Char.utf8Size).sum := by
        simp only [List.map_append, List.sum_append, List.map_cons, List.map_nil, List.sum_cons,
          List.sum_nil, Hole.growth, Replacement.hole, Text.len]
        omega
      simp only [Option.bind_eq_bind, Option.bind_some, hoffset]
      simpa using hnext

/-- What `mask` stores for a layout without drift, `unmask` replays to the text. -/
theorem PiiMasker.unmask_of_redact (masker : PiiMasker) (text : Text)
    {L : Layout Char} (hred : redact masker.patterns text = some L)
    (hbal : L.Balanced Char.utf8Size) :
    ∃ masked replacements, maskPatterns masker.patterns text [] = some (masked, replacements) ∧
      Godwit.unmaskReplacements replacements 0 masked = some text := by
  obtain ⟨⟨L', n⟩, hpatterns, rfl⟩ := Option.map_eq_some_iff.1 hred
  obtain ⟨masked, replacements, h, hmask⟩ :=
    (Recorded.init text).maskPatterns masker.patterns hpatterns
  refine ⟨masked, replacements, hmask, ?_⟩
  have hunmask := h.unmaskReplacements hbal [] replacements rfl
  have hall : (L'.render fun j => decide (([] : List Replacement).length ≤ j)) = masked := by
    rw [← h.masked]
    exact Layout.render_congr fun q _ => by simp
  rw [hall] at hunmask
  simpa using hunmask

/-- The round trip: on a text whose matches never cover part of a placeholder, and whose holes do
    not drift, `unmask` after `mask` under the same request id gives the text back. -/
theorem PiiMasker.unmask_mask (masker : PiiMasker) (text : Text) (requestId : String)
    {L : Layout Char} (hred : redact masker.patterns text = some L)
    (hbal : L.Balanced Char.utf8Size) :
    ∃ masked, (masker.mask text requestId).1 = some masked ∧
      ((masker.mask text requestId).2.unmask masked requestId).1 = some text := by
  obtain ⟨masked, replacements, hmask, hunmask⟩ := masker.unmask_of_redact text hred hbal
  refine ⟨masked, by simp [PiiMasker.mask, hmask], ?_⟩
  simpa [PiiMasker.mask, hmask, PiiMasker.unmask] using hunmask

/-! ## One pattern

The matches of a single pattern are found from left to right, so its holes never drift. -/

/-- What stands between the offsets of a match, seen from the end of an earlier match. -/
theorem match_in_tail {head tail : Text} {m : Nat × Nat}
    (hslice : (slice? Char.utf8Size (head ++ tail) m.1 m.2).isSome) (hfrom : head.len ≤ m.1) :
    ∃ l original r, tail = l ++ original ++ r ∧ m.1 = head.len + l.len ∧
      m.2 = m.1 + original.len := by
  obtain ⟨original, hpart⟩ := Option.isSome_iff_exists.1 hslice
  obtain ⟨l, r, htext, hl, hstop⟩ := slice?_eq_some _ hpart
  rw [List.append_assoc] at htext
  obtain ⟨l', rfl, htail⟩ := append_eq_of_extent_le Char.utf8Size Char.utf8Size_pos htext
    (by rw [hl]; exact hfrom)
  refine ⟨l', original, r, by rw [htail, List.append_assoc], ?_, hstop⟩
  rw [← hl, extent_append]
  rfl

/-- The holes of one pattern are cut out of the last literal, each to the right of those before. -/
theorem redactMatches_ordered (placeholder : Text) (found : List (Nat × Nat)) (head tail : Text)
    (offset : Int) (P : Layout Char) (n : Nat)
    (hne : ∀ m ∈ found, m.1 < m.2)
    (hslice : ∀ m ∈ found, (slice? Char.utf8Size (head ++ tail) m.1 m.2).isSome)
    (hordered : found.Pairwise fun m m' => m.2 ≤ m'.1)
    (hfrom : ∀ m ∈ found, head.len ≤ m.1)
    (hoffset : (extent Char.utf8Size (Layout.render (fun _ => true) P) : Int)
      = head.len - offset)
    (hnum : ∀ q ∈ P.holes, q.1 < n) (hP : (P.holes.map Prod.fst).Pairwise (· < ·)) :
    ∃ L' n', redactMatches placeholder found offset (P ++ [.lit tail]) n = some (L', n') ∧
      (L'.holes.map Prod.fst).Pairwise (· < ·) := by
  induction found generalizing head tail offset P n with
  | nil => exact ⟨_, _, rfl, by simpa [Layout.holes] using hP⟩
  | cons m rest ih =>
      obtain ⟨l, original, r, rfl, hstart, hstop⟩ :=
        match_in_tail (hslice m List.mem_cons_self) (hfrom m List.mem_cons_self)
      have hm := hne m List.mem_cons_self
      have horig : original ≠ [] := by
        rintro rfl
        simp only [Text.len, extent_nil] at hstop
        omega
      have hcut := Layout.cut_last Char.utf8Size Char.utf8Size_pos placeholder n P l original r horig
      simp only [Text.len] at hstart hstop hoffset
      rw [show extent Char.utf8Size (Layout.render (fun _ => true) P) + extent Char.utf8Size l
          = (m.1 - offset).toNat by omega,
        show (m.1 - offset).toNat + extent Char.utf8Size original
          = (m.2 - offset).toNat by omega] at hcut
      simp only [redactMatches, hcut, Option.bind_eq_bind, Option.bind_some]
      -- the next matches start after this one, in the literal `r`
      have hafter : ∀ m' ∈ rest, Text.len (head ++ l ++ original) ≤ m'.1 := by
        intro m' hm'
        have := (List.pairwise_cons.1 hordered).1 m' hm'
        simp only [Text.len, extent_append]
        omega
      have hnext := ih (head ++ l ++ original) r
        (offset + ((m.2 - offset).toNat - (m.1 - offset).toNat - placeholder.len))
        (P ++ [.lit l, .hole n ⟨original, placeholder⟩]) (n + 1)
        (fun m' hm' => hne m' (List.mem_cons_of_mem _ hm'))
        (fun m' hm' => by simpa using hslice m' (List.mem_cons_of_mem _ hm'))
        (List.pairwise_cons.1 hordered).2 hafter ?_ ?_ ?_
      · simpa using hnext
      · simp only [Layout.render_append, Layout.render_cons, Layout.render_nil, Segment.render,
          extent_append, if_true, Text.len, List.append_nil]
        push_cast
        omega
      · intro q hq
        rw [Layout.holes_append, List.mem_append] at hq
        rcases hq with hq | hq
        · have := hnum q hq
          omega
        · obtain rfl : q = (n, ⟨original, placeholder⟩) := by simpa [Layout.holes] using hq
          exact Nat.lt_succ_self n
      · simp only [Layout.holes_append, Layout.holes, List.map_append, List.map_cons, List.map_nil]
        refine List.pairwise_append.2 ⟨hP, List.pairwise_singleton _ _, ?_⟩
        intro a ha b hb
        obtain rfl : b = n := by simpa using hb
        obtain ⟨q, hq, rfl⟩ := List.mem_map.1 ha
        exact hnum q hq

/-! ## Masking never panics -/

/-- What was replaced before does not matter to the loop over the matches. -/
theorem maskMatches_append (placeholder : Text) (found : List (Nat × Nat)) (offset : Int)
    (masked : Text) (before replacements : List Replacement) :
    maskMatches placeholder found offset masked (before ++ replacements)
      = (maskMatches placeholder found offset masked replacements).map
          fun result => (result.1, before ++ result.2) := by
  induction found generalizing offset masked replacements with
  | nil => rfl
  | cons m rest ih =>
      obtain ⟨matchStart, matchEnd⟩ := m
      simp only [maskMatches, Option.bind_eq_bind, List.append_assoc]
      cases slice? Char.utf8Size masked (matchStart - offset).toNat (matchEnd - offset).toNat with
      | none => rfl
      | some original =>
          cases replaceRange? Char.utf8Size masked (matchStart - offset).toNat
            (matchEnd - offset).toNat placeholder with
          | none => rfl
          | some masked' => exact ih _ _ _

/-- The matches of a pattern on a text can all be replaced. -/
theorem maskMatches_total (pattern : PiiPattern) (text : Text) (replacements : List Replacement) :
    ∃ masked replacements', maskMatches pattern.replacement (pattern.findIter text) 0 text replacements
      = some (masked, replacements') := by
  have hvalid := pattern.findIter_valid text
  obtain ⟨L, n, hred, -⟩ := redactMatches_ordered pattern.replacement (pattern.findIter text)
    [] text 0 [] 0 hvalid.nonempty hvalid.boundary hvalid.ordered (by simp [Text.len])
    (by simp [Text.len]) (by simp [Layout.holes]) (by simp [Layout.holes])
  obtain ⟨masked, replacements', -, -, hmask⟩ := (Recorded.init text).maskMatches
    (pattern.findIter text) (fun m hm => (hvalid.nonempty m hm).le) 0 hred
  refine ⟨masked, replacements ++ replacements', ?_⟩
  have happend := maskMatches_append pattern.replacement (pattern.findIter text) 0 text replacements []
  rw [List.append_nil, hmask] at happend
  exact happend

theorem maskPatterns_total (patterns : List PiiPattern) (text : Text)
    (replacements : List Replacement) :
    ∃ masked replacements', maskPatterns patterns text replacements = some (masked, replacements') := by
  induction patterns generalizing text replacements with
  | nil => exact ⟨text, replacements, rfl⟩
  | cons pattern rest ih =>
      obtain ⟨masked, replacements₁, hmask⟩ := maskMatches_total pattern text replacements
      obtain ⟨masked', replacements', hrest⟩ := ih masked replacements₁
      refine ⟨masked', replacements', ?_⟩
      simp only [maskPatterns, hmask]
      exact hrest

/-- A masker with one pattern gives every text back. -/
theorem PiiMasker.unmask_mask_single (masker : PiiMasker) (pattern : PiiPattern)
    (hone : masker.patterns = [pattern]) (text : Text) (requestId : String) :
    ∃ masked, (masker.mask text requestId).1 = some masked ∧
      ((masker.mask text requestId).2.unmask masked requestId).1 = some text := by
  have hvalid := pattern.findIter_valid text
  obtain ⟨L, n, hred, hL⟩ := redactMatches_ordered pattern.replacement (pattern.findIter text)
    [] text 0 [] 0 hvalid.nonempty hvalid.boundary hvalid.ordered (by simp [Text.len])
    (by simp [Text.len]) (by simp [Layout.holes]) (by simp [Layout.holes])
  have hredact : redact masker.patterns text = some L := by
    simp only [List.nil_append] at hred
    simp [redact, hone, redactPatterns, Segment.render, hred]
  obtain ⟨masked, replacements, hmask, hunmask⟩ :=
    masker.unmask_of_redact text hredact (Layout.balanced_of_ordered Char.utf8Size hL)
  refine ⟨masked, by simp [PiiMasker.mask, hmask], ?_⟩
  simpa [PiiMasker.mask, hmask, PiiMasker.unmask] using hunmask

/-! ## Two patterns on two texts -/

/-- The matches of a one-character class in a text that starts at offset `pos`. -/
def classMatches (p : Char → Bool) : Text → Nat → List (Nat × Nat)
  | [], _ => []
  | c :: cs, pos =>
    if p c then (pos, pos + c.utf8Size) :: classMatches p cs (pos + c.utf8Size)
    else classMatches p cs (pos + c.utf8Size)

theorem classMatches_valid (p : Char → Bool) (before text : Text) :
    ValidMatches (before ++ text) (classMatches p text before.len) ∧
      ∀ m ∈ classMatches p text before.len, before.len ≤ m.1 := by
  induction text generalizing before with
  | nil => exact ⟨⟨by simp [classMatches], by simp [classMatches], by simp [classMatches]⟩,
      by simp [classMatches]⟩
  | cons c cs ih =>
      have hlen : Text.len (before ++ [c]) = before.len + c.utf8Size := by simp [Text.len]
      have hc := Char.utf8Size_pos c
      have hih := ih (before ++ [c])
      rw [hlen, List.append_assoc, List.singleton_append] at hih
      obtain ⟨hvalid, hfrom⟩ := hih
      by_cases hp : p c = true
      · simp only [classMatches, hp, if_true]
        refine ⟨⟨?_, ?_, ?_⟩, ?_⟩
        · exact List.forall_mem_cons.2 ⟨by simp only; omega, hvalid.nonempty⟩
        · refine List.forall_mem_cons.2 ⟨?_, hvalid.boundary⟩
          have hslice := slice?_append _ Char.utf8Size_pos before [c] cs
          simp only [extent_cons, extent_nil, Nat.add_zero, List.append_assoc,
            List.singleton_append] at hslice
          simp [Text.len, hslice]
        · exact List.pairwise_cons.2 ⟨fun m hm => hfrom m hm, hvalid.ordered⟩
        · refine List.forall_mem_cons.2 ⟨le_rfl, fun m hm => ?_⟩
          have := hfrom m hm
          omega
      · simp only [classMatches, hp]
        exact ⟨hvalid, fun m hm => by have := hfrom m hm; omega⟩

/-- A pattern that matches every single character of a class. -/
def PiiPattern.charClass (p : Char → Bool) (replacement : Text) : PiiPattern where
  name := "class"
  findIter text := classMatches p text 0
  replacement := replacement
  findIter_valid text := (classMatches_valid p [] text).1

/-- Digits are looked for first, at-signs second. -/
def digitsThenAts : List PiiPattern :=
  [.charClass Char.isDigit "[NUM]".toList, .charClass (· == '@') "[AT]".toList]

/-- The digit stands left of the at-sign: the holes are numbered from left to right. -/
theorem unmask_mask_inOrder :
    ∃ masked, ((PiiMasker.new digitsThenAts).mask "1 @".toList "req").1 = some masked ∧
      (((PiiMasker.new digitsThenAts).mask "1 @".toList "req").2.unmask masked "req").1
        = some "1 @".toList := by
  refine @PiiMasker.unmask_mask (PiiMasker.new digitsThenAts) "1 @".toList "req"
    [.lit [], .hole 0 ⟨"1".toList, "[NUM]".toList⟩, .lit " ".toList,
      .hole 1 ⟨"@".toList, "[AT]".toList⟩, .lit []] ?_ ?_
  · decide
  · decide

/-- The at-sign stands left of the digit and is replaced after it: the digit's placeholder is looked
    for where it stood before. -/
theorem unmask_mask_crossed :
    ¬ ∀ (patterns : List PiiPattern) (text : Text) (requestId : String) (masked : Text),
        ((PiiMasker.new patterns).mask text requestId).1 = some masked →
        (((PiiMasker.new patterns).mask text requestId).2.unmask masked requestId).1
          = some text := by
  intro h
  have := h digitsThenAts "@ 1".toList "req" "[AT] [NUM]".toList (by decide)
  revert this
  decide

end Godwit
