import Godwit.Lib.Redaction

set_option autoImplicit false

/-! # Edits replayed on another text

An edit puts a text in the place of a given length at a given offset. The offsets of a list of edits count in
the texts in which they were recorded, and one running offset corrects for the edits already applied.
`replay` does on a marked text what `applyEdits` does on a text: what an edit has put in is one segment, so that
no later edit can touch it, and what it has taken out is kept in the hole. `Layout.Placed` says where the holes
have to stand in the text that is edited, and `replay` succeeds exactly on the texts that have such places. -/

namespace Godwit

/-- Replace this many bytes from an offset on. -/
structure TextEdit (α : Type) where
  start : Nat
  length : Nat
  text : List α
  deriving DecidableEq, Repr

section Sized

variable {α : Type} (size : α → Nat)

/-- How much longer an edit makes its text. -/
def TextEdit.shift (e : TextEdit α) : Int := extent size e.text - e.length

/-- The edits in order, each moved by what the earlier ones have made the text longer. -/
def applyEdits : List (TextEdit α) → Int → List α → Option (List α)
  | [], _, xs => some xs
  | e :: rest, offset, xs => do
    if e.start + offset < 0 then none
    else
      let start := (e.start + offset).toNat
      let xs ← replaceRange? size xs start (start + e.length) e.text
      applyEdits rest (offset + e.shift size) xs

/-! ## Marked texts -/

/-- The size of a segment in which a hole shows its original. -/
def Segment.width (s : Segment α) : Nat := extent size (s.render fun _ => false)

/-- A text of which every symbol is a segment. -/
def Layout.symbols (xs : List α) : Layout α := xs.map fun x => .lit [x]

/-- Put hole `k` over the segments from `start` on, none of which may be a hole. -/
def Layout.fill (k : Nat) (original : List α) (L : Layout α) (start length : Nat) : Option (Layout α) := do
  let (before, tail) ← splitAt? (Segment.width size) L start
  let (covered, after) ← splitAt? (Segment.width size) tail length
  if (Layout.holes covered).isEmpty then
    some (before ++ .hole k ⟨original, Layout.render (fun _ => true) covered⟩ :: after)
  else none

/-- The layout in which only the holes below `k` are holes. -/
def Layout.filledTo (k : Nat) (L : Layout α) : Layout α :=
  L.flatMap fun
    | .lit xs => Layout.symbols xs
    | .hole j h => if j < k then [.hole j h] else Layout.symbols h.placeholder

/-- The edits on a marked text: edit number `k` leaves hole `k`. -/
def replay : List (TextEdit α) → Int → Nat → Layout α → Option (Layout α)
  | [], _, _, L => some L
  | e :: rest, offset, k, L => do
    if e.start + offset < 0 then none
    else
      let L ← L.fill size k e.text (e.start + offset).toNat e.length
      replay rest (offset + e.shift size) (k + 1) L

/-- The holes are those of the edits. Hole `k` covers as much as edit `k` replaces and stands at the offset of the
    edit, but for the edits before it that are applied on its right: these have moved the running offset and not
    the hole. -/
structure Layout.Placed (edits : List (TextEdit α)) (L : Layout α) : Prop where
  numbers : (L.holes.map Prod.fst).Perm (List.range edits.length)
  place : ∀ A k h B, L = A ++ .hole k h :: B → ∃ e, edits[k]? = some e ∧ h.original = e.text
    ∧ extent size h.placeholder = e.length
    ∧ (extent size (Layout.render (fun _ => true) A) : Int)
        = e.start - Layout.growth size (fun j => decide (j < k)) B

theorem Layout.extent_width (L : Layout α) :
    extent (Segment.width size) L = extent size (L.render fun _ => false) := by
  induction L with
  | nil => rfl
  | cons s L ih => rw [extent_cons, ih, Layout.render_cons, extent_append, Segment.width]

@[simp] theorem Layout.symbols_holes (xs : List α) : (Layout.symbols xs).holes = [] := by
  induction xs with
  | nil => rfl
  | cons x xs ih => exact ih

@[simp] theorem Layout.symbols_render (masked : Nat → Bool) (xs : List α) :
    (Layout.symbols xs).render masked = xs := by
  induction xs with
  | nil => rfl
  | cons x xs ih =>
      have hcons : Layout.symbols (x :: xs) = .lit [x] :: Layout.symbols xs := rfl
      rw [hcons, Layout.render_cons, ih]
      rfl

/-- Without holes there is one text to show. -/
theorem Layout.render_of_holes_nil {L : Layout α} (h : L.holes = []) (masked masked' : Nat → Bool) :
    L.render masked = L.render masked' := by
  refine Layout.render_congr fun q hq => ?_
  rw [h] at hq
  exact absurd hq (List.not_mem_nil)

/-- What `fill` can do. -/
theorem Layout.fill_eq_some {k start length : Nat} {original : List α} {L L' : Layout α}
    (h : L.fill size k original start length = some L') :
    ∃ A M B, L = A ++ M ++ B ∧ M.holes = [] ∧ L' = A ++ .hole k ⟨original, M.render fun _ => true⟩ :: B
      ∧ extent size (Layout.render (fun _ => false) A) = start
      ∧ extent size (Layout.render (fun _ => true) M) = length := by
  unfold Layout.fill at h
  simp only [Option.bind_eq_bind, Option.bind_eq_some_iff] at h
  obtain ⟨⟨A, tail⟩, hA, ⟨M, B⟩, hM, h⟩ := h
  simp only at hM h
  split_ifs at h with hholes
  obtain ⟨rfl, hstart⟩ := splitAt?_eq_some _ hA
  obtain ⟨rfl, hlength⟩ := splitAt?_eq_some _ hM
  have hnil : Layout.holes M = [] := List.isEmpty_iff.1 hholes
  refine ⟨A, M, B, (List.append_assoc _ _ _).symm, hnil, (Option.some.inj h).symm, ?_, ?_⟩
  · rw [← Layout.extent_width, hstart]
  · rw [Layout.render_of_holes_nil hnil _ fun _ => false, ← Layout.extent_width, hlength]

/-! ## Growth -/

theorem Layout.growth_append (p : Nat → Bool) (L M : Layout α) :
    Layout.growth size p (L ++ M) = Layout.growth size p L + Layout.growth size p M := by
  simp [Layout.growth]

theorem Layout.growth_hole (p : Nat → Bool) (k : Nat) (h : Hole α) (L : Layout α) :
    Layout.growth size p (.hole k h :: L)
      = (if p k then h.growth size else 0) + Layout.growth size p L := by
  by_cases hp : p k
  · simp [Layout.growth, Layout.holes, hp]
  · simp [Layout.growth, Layout.holes, hp]

theorem Layout.growth_of_holes_nil (p : Nat → Bool) {L : Layout α} (h : L.holes = []) :
    Layout.growth size p L = 0 := by
  simp [Layout.growth, h]

/-! ## What a replay leaves -/

/-- Two ways to single out a segment. -/
theorem append_cons_eq_append_cons {β : Type} {A B A' B' : List β} {s s' : β}
    (h : A ++ (s :: B) = A' ++ (s' :: B')) :
    (A = A' ∧ s = s' ∧ B = B') ∨ (∃ C, A = A' ++ s' :: C ∧ B' = C ++ s :: B)
      ∨ ∃ C, A' = A ++ s :: C ∧ B = C ++ s' :: B' := by
  rcases List.append_eq_append_iff.1 h with ⟨C, hA, hB⟩ | ⟨C, hA, hB⟩
  · cases C with
    | nil =>
        obtain ⟨rfl, rfl⟩ := List.cons.inj hB
        exact .inl ⟨by rw [hA, List.append_nil], rfl, rfl⟩
    | cons c C =>
        obtain ⟨rfl, htail⟩ := List.cons.inj hB
        exact .inr (.inr ⟨C, hA, htail⟩)
  · cases C with
    | nil =>
        obtain ⟨rfl, rfl⟩ := List.cons.inj hB
        exact .inl ⟨by rw [hA, List.append_nil], rfl, rfl⟩
    | cons c C =>
        obtain ⟨rfl, htail⟩ := List.cons.inj hB
        exact .inr (.inl ⟨C, hA, htail⟩)

section Placed

variable {size} {edits : List (TextEdit α)} {L : Layout α}

theorem Layout.Placed.nodup (h : L.Placed size edits) : (L.holes.map Prod.fst).Nodup :=
  h.numbers.nodup_iff.2 List.nodup_range

theorem Layout.Placed.number_lt (h : L.Placed size edits) {q : Nat × Hole α} (hq : q ∈ L.holes) :
    q.1 < edits.length := by
  have hmem := h.numbers.subset (List.mem_map_of_mem hq)
  exact List.mem_range.1 hmem

/-- An edit that finds its place in a marked text. -/
theorem Layout.Placed.fill (h : L.Placed size edits) {e : TextEdit α} {start : Nat} {L' : Layout α}
    (hfill : L.fill size edits.length e.text start e.length = some L')
    (hstart : (start : Int) = e.start - Layout.growth size (fun _ => true) L) :
    L'.Placed size (edits ++ [e]) := by
  obtain ⟨A, M, B, rfl, hM, rfl, hA, hlength⟩ := Layout.fill_eq_some size hfill
  have hnumber : ∀ q ∈ A.holes ++ B.holes, q.1 < edits.length := by
    intro q hq
    refine h.number_lt ?_
    rw [Layout.holes_append, Layout.holes_append, hM, List.append_nil]
    exact hq
  constructor
  · have hnumbers := h.numbers
    rw [Layout.holes_append, Layout.holes_append, hM, List.append_nil] at hnumbers
    rw [List.length_append, List.length_singleton, List.range_succ, Layout.holes_append, Layout.holes,
      List.map_append, List.map_cons]
    refine List.perm_middle.trans ?_
    rw [← List.map_append]
    exact (hnumbers.cons _).trans (List.perm_append_singleton _ _).symm
  · intro A' k hk B' heq
    rcases append_cons_eq_append_cons heq with ⟨rfl, hhole, rfl⟩ | ⟨C, rfl, rfl⟩ | ⟨C, rfl, rfl⟩
    · -- the hole of this edit: all other holes have been filled before it
      obtain ⟨rfl, rfl⟩ := Segment.hole.inj hhole
      refine ⟨e, by simp, rfl, hlength, ?_⟩
      have hbelow : Layout.growth size (fun j => decide (j < edits.length)) B
          = Layout.growth size (fun _ => true) B :=
        Layout.growth_congr size fun q hq => decide_eq_true (hnumber q (List.mem_append_right _ hq))
      rw [Layout.growth_append, Layout.growth_append, Layout.growth_of_holes_nil size _ hM] at hstart
      rw [Layout.extent_render, hA, hstart, hbelow]
      omega
    · -- a hole on the left: this edit does not count for it
      obtain ⟨e', he', horiginal, hsize', hplace⟩ := h.place A' k hk (C ++ M ++ B) (by simp)
      have hlt : k < edits.length := (List.getElem?_eq_some_iff.1 he').1
      refine ⟨e', by rw [List.getElem?_append_left hlt, he'], horiginal, hsize', ?_⟩
      have hnew : decide (edits.length < k) = false := decide_eq_false (by omega)
      rw [Layout.growth_append, Layout.growth_append, Layout.growth_of_holes_nil size _ hM] at hplace
      rw [hplace, Layout.growth_append, Layout.growth_hole, hnew, if_neg Bool.false_ne_true]
      omega
    · -- a hole on the right: the text before it is the same with the placeholder as with what it covers
      obtain ⟨e', he', horiginal, hsize', hplace⟩ := h.place (A ++ M ++ C) k hk B' (by simp)
      have hlt : k < edits.length := (List.getElem?_eq_some_iff.1 he').1
      refine ⟨e', by rw [List.getElem?_append_left hlt, he'], horiginal, hsize', ?_⟩
      rw [← hplace]
      simp [Segment.render]

end Placed

/-! ## The layout in which only some holes are holes -/

section Filled

variable {size}

/-- A split after a text whose segments all have a size. -/
theorem splitAt?_append_of_pos {β : Type} (width : β → Nat) (l r : List β) (hl : ∀ b ∈ l, 0 < width b) :
    splitAt? width (l ++ r) (extent width l) = some (l, r) := by
  induction l with
  | nil => simp [splitAt?]
  | cons x l ih =>
      have hx := hl x List.mem_cons_self
      obtain ⟨n, hn⟩ : ∃ n, extent width (x :: l) = n + 1 :=
        ⟨width x - 1 + extent width l, by rw [extent_cons]; omega⟩
      rw [List.cons_append, hn, splitAt?, ← hn, extent_cons, if_pos (by omega), Nat.add_sub_cancel_left,
        ih fun b hb => hl b (List.mem_cons_of_mem _ hb)]
      rfl

theorem Layout.fill_append {k start length : Nat} {original : List α} {A M B : Layout α}
    (hA : ∀ s ∈ A, 0 < s.width size) (hM : ∀ s ∈ M, 0 < s.width size) (hholes : M.holes = [])
    (hstart : extent (Segment.width size) A = start) (hlength : extent (Segment.width size) M = length) :
    Layout.fill size k original (A ++ M ++ B) start length
      = some (A ++ .hole k ⟨original, M.render fun _ => true⟩ :: B) := by
  have hfirst := splitAt?_append_of_pos (Segment.width size) A (M ++ B) hA
  have hsecond := splitAt?_append_of_pos (Segment.width size) M B hM
  rw [hstart] at hfirst
  rw [hlength] at hsecond
  rw [Layout.fill, List.append_assoc, hfirst]
  simp [hsecond, hholes]

theorem Layout.filledTo_append (k : Nat) (A B : Layout α) :
    Layout.filledTo k (A ++ B) = Layout.filledTo k A ++ Layout.filledTo k B := by
  rw [Layout.filledTo, List.flatMap_append]
  rfl

theorem Layout.filledTo_lit (k : Nat) (xs : List α) (L : Layout α) :
    Layout.filledTo k (.lit xs :: L) = Layout.symbols xs ++ Layout.filledTo k L := rfl

theorem Layout.filledTo_hole (k j : Nat) (h : Hole α) (L : Layout α) :
    Layout.filledTo k (.hole j h :: L)
      = (if j < k then [.hole j h] else Layout.symbols h.placeholder) ++ Layout.filledTo k L := rfl

theorem Layout.filledTo_holes (k : Nat) (L : Layout α) :
    (Layout.filledTo k L).holes = L.holes.filter fun q => decide (q.1 < k) := by
  induction L with
  | nil => rfl
  | cons s L ih =>
      cases s with
      | lit xs => rw [filledTo_lit, Layout.holes_append, Layout.symbols_holes, ih, List.nil_append, Layout.holes]
      | hole j h =>
          rw [filledTo_hole, Layout.holes_append, ih, Layout.holes]
          by_cases hj : j < k
          · simp [hj, Layout.holes]
          · simp [hj]

theorem Layout.filledTo_render (k : Nat) (L : Layout α) :
    (Layout.filledTo k L).render (fun _ => true) = L.render fun _ => true := by
  induction L with
  | nil => rfl
  | cons s L ih =>
      cases s with
      | lit xs =>
          rw [filledTo_lit, Layout.render_append, Layout.symbols_render, ih, Layout.render_cons, Segment.render]
      | hole j h =>
          rw [filledTo_hole, Layout.render_append, ih, Layout.render_cons, Segment.render, if_pos rfl]
          by_cases hj : j < k
          · simp [hj, Segment.render]
          · simp [hj]

/-- The holes below `k` are the ones that count. -/
theorem Layout.filledTo_extent (k : Nat) (L : Layout α) :
    (extent (Segment.width size) (Layout.filledTo k L) : Int)
      = extent size (Layout.render (fun _ => true) L) - Layout.growth size (fun j => decide (j < k)) L := by
  have hgrowth : Layout.growth size (fun _ => true) (Layout.filledTo k L)
      = Layout.growth size (fun j => decide (j < k)) L := by
    rw [Layout.growth, Layout.growth, Layout.filledTo_holes, List.filter_true]
  have hrender := Layout.extent_render size (fun _ => true) (Layout.filledTo k L)
  rw [Layout.filledTo_render, hgrowth] at hrender
  rw [Layout.extent_width]
  omega

theorem Layout.filledTo_zero (L : Layout α) : Layout.filledTo 0 L = Layout.symbols (L.render fun _ => true) := by
  induction L with
  | nil => rfl
  | cons s L ih =>
      have hsymbols : ∀ xs ys : List α, Layout.symbols xs ++ Layout.symbols ys = Layout.symbols (xs ++ ys) :=
        fun xs ys => (List.map_append).symm
      cases s with
      | lit xs => rw [filledTo_lit, ih, hsymbols, Layout.render_cons, Segment.render]
      | hole j h =>
          rw [filledTo_hole, ih, if_neg (Nat.not_lt_zero j), hsymbols, Layout.render_cons, Segment.render,
            if_pos rfl]

theorem Layout.filledTo_succ {k : Nat} {L : Layout α} (h : ∀ q ∈ L.holes, q.1 ≠ k) :
    L.filledTo (k + 1) = L.filledTo k := by
  induction L with
  | nil => rfl
  | cons s L ih =>
      cases s with
      | lit xs => rw [filledTo_lit, filledTo_lit, ih h]
      | hole j hj =>
          have hne : j ≠ k := h (j, hj) List.mem_cons_self
          rw [filledTo_hole, filledTo_hole, ih fun q hq => h q (List.mem_cons_of_mem _ hq)]
          by_cases hlt : j < k
          · rw [if_pos hlt, if_pos (by omega)]
          · rw [if_neg hlt, if_neg (by omega)]

theorem Layout.exists_of_mem_holes {L : Layout α} {q : Nat × Hole α} (hq : q ∈ L.holes) :
    ∃ A B, L = A ++ .hole q.1 q.2 :: B := by
  induction L with
  | nil => exact absurd hq List.not_mem_nil
  | cons s L ih =>
      cases s with
      | lit xs =>
          obtain ⟨A, B, rfl⟩ := ih hq
          exact ⟨.lit xs :: A, B, rfl⟩
      | hole j h =>
          rcases List.mem_cons.1 hq with rfl | hq
          · exact ⟨[], L, rfl⟩
          · obtain ⟨A, B, rfl⟩ := ih hq
            exact ⟨.hole j h :: A, B, rfl⟩

/-- The holes that count up to the next number. -/
theorem Layout.growth_succ_of_ne {k : Nat} {L : Layout α} (h : ∀ q ∈ L.holes, q.1 ≠ k) :
    Layout.growth size (fun j => decide (j < k + 1)) L = Layout.growth size (fun j => decide (j < k)) L := by
  refine Layout.growth_congr size fun q hq => ?_
  have hne := h q hq
  simp only [decide_eq_decide]
  omega

variable {edits : List (TextEdit α)} {L : Layout α}

/-- The place of an edit. -/
theorem Layout.Placed.split_at (h : L.Placed size edits) {k : Nat} {e : TextEdit α} (he : edits[k]? = some e) :
    ∃ A hole B, L = A ++ .hole k hole :: B ∧ (∀ q ∈ Layout.holes A, q.1 ≠ k) ∧ (∀ q ∈ Layout.holes B, q.1 ≠ k)
      ∧ hole.original = e.text ∧ extent size hole.placeholder = e.length
      ∧ (extent size (Layout.render (fun _ => true) A) : Int)
          = e.start - Layout.growth size (fun j => decide (j < k)) B := by
  have hlt : k < edits.length := (List.getElem?_eq_some_iff.1 he).1
  have hmem : k ∈ L.holes.map Prod.fst := h.numbers.mem_iff.2 (List.mem_range.2 hlt)
  obtain ⟨⟨j, hole⟩, hhole, hj⟩ := List.mem_map.1 hmem
  obtain rfl : j = k := hj
  have hL := Layout.split_at_hole hhole h.nodup
  obtain ⟨e', he', horiginal, hlength, hplace⟩ := h.place _ _ hole _ hL
  obtain rfl : e = e' := Option.some.inj (he.symm.trans he')
  refine ⟨_, hole, _, hL, ?_, ?_, horiginal, hlength, hplace⟩
  · rintro ⟨i, hi⟩ hq rfl
    exact Layout.not_mem_before L i hi hq
  · rintro ⟨i, hi⟩ hq rfl
    exact Layout.not_mem_after hhole h.nodup hi hq

/-- One more hole counts for what its edit adds. -/
theorem Layout.Placed.growth_succ (h : L.Placed size edits) {k : Nat} {e : TextEdit α} (he : edits[k]? = some e) :
    Layout.growth size (fun j => decide (j < k + 1)) L
      = Layout.growth size (fun j => decide (j < k)) L - e.shift size := by
  obtain ⟨A, hole, B, rfl, hA, hB, horiginal, hlength, -⟩ := h.split_at he
  rw [Layout.growth_append, Layout.growth_append, Layout.growth_hole, Layout.growth_hole,
    Layout.growth_succ_of_ne hA, Layout.growth_succ_of_ne hB, if_pos (by simp), if_neg (by simp), Hole.growth,
    hlength, horiginal, TextEdit.shift]
  omega

theorem Layout.Placed.original_ne_nil (h : L.Placed size edits) (htexts : ∀ e ∈ edits, e.text ≠ []) :
    ∀ q ∈ L.holes, q.2.original ≠ [] := by
  rintro ⟨j, hole⟩ hq
  obtain ⟨A, B, hAB⟩ := Layout.exists_of_mem_holes hq
  obtain ⟨e, he, htext, -⟩ := h.place A j hole B hAB
  rw [htext]
  exact htexts e (List.mem_of_getElem? he)

end Filled

/-! ## Replaying -/

section Replay

variable {size} {edits earlier later : List (TextEdit α)} {L L' : Layout α}

theorem Layout.Placed.init (xs : List α) : (Layout.symbols xs).Placed size [] where
  numbers := by simp
  place := by
    intro A k h B heq
    have hnone : (Layout.symbols xs).holes = [] := Layout.symbols_holes xs
    rw [heq, Layout.holes_append, Layout.holes] at hnone
    simp at hnone

section Positive

variable (hsize : ∀ a, 0 < size a)

include hsize

/-- A replay places the holes, keeps the text that is edited, and shows the text that the edits leave. -/
theorem Layout.Placed.replay (h : L.Placed size earlier)
    (hrun : Godwit.replay size later (-Layout.growth size (fun _ => true) L) earlier.length L = some L') :
    L'.Placed size (earlier ++ later) ∧ L'.render (fun _ => true) = L.render (fun _ => true)
      ∧ applyEdits size later (-Layout.growth size (fun _ => true) L) (L.render fun _ => false)
          = some (L'.render fun _ => false) := by
  induction later generalizing earlier L with
  | nil =>
      obtain rfl : L = L' := Option.some.inj hrun
      exact ⟨by rwa [List.append_nil], rfl, rfl⟩
  | cons e later ih =>
      unfold Godwit.replay at hrun
      split_ifs at hrun with hneg
      simp only [Option.bind_eq_bind, Option.bind_eq_some_iff] at hrun
      obtain ⟨L₁, hfill, hrest⟩ := hrun
      have hplaced := h.fill hfill (by omega)
      obtain ⟨A, M, B, rfl, hM, rfl, hA, hlength⟩ := Layout.fill_eq_some size hfill
      -- the growth of the new hole is what the edit takes from the offset
      have hoffset : -Layout.growth size (fun _ => true) (A ++ M ++ B) + e.shift size
          = -Layout.growth size (fun _ => true) (A ++ .hole earlier.length ⟨e.text, M.render fun _ => true⟩ :: B) := by
        have hgrowth : Hole.growth size ⟨e.text, Layout.render (fun _ => true) M⟩ = e.length - extent size e.text := by
          rw [Hole.growth, hlength]
        rw [Layout.growth_append, Layout.growth_append, Layout.growth_append,
          Layout.growth_of_holes_nil size _ hM, Layout.growth_hole, if_pos rfl, hgrowth, TextEdit.shift]
        omega
      have hnumber : earlier.length + 1 = (earlier ++ [e]).length := by simp
      rw [hoffset, hnumber] at hrest
      obtain ⟨hall, htext, happly⟩ := ih hplaced hrest
      rw [List.append_assoc] at hall
      refine ⟨hall, ?_, ?_⟩
      · rw [htext]
        simp [Segment.render]
      · have hreplace := replaceRange?_append size hsize (Layout.render (fun _ => false) A)
          (Layout.render (fun _ => false) M) (Layout.render (fun _ => false) B) e.text
        rw [Layout.render_of_holes_nil hM (fun _ => false) fun _ => true, hA, hlength] at hreplace
        rw [applyEdits, if_neg hneg, hoffset]
        rw [Layout.render_append, Layout.render_append,
          Layout.render_of_holes_nil hM (fun _ => false) fun _ => true]
        simp only [hreplace, Option.bind_eq_bind, Option.bind_some]
        rw [← happly]
        simp [Segment.render]

theorem Layout.symbols_width_pos (xs : List α) : ∀ s ∈ Layout.symbols xs, 0 < s.width size := by
  intro s hs
  obtain ⟨x, -, rfl⟩ := List.mem_map.1 hs
  have hx := hsize x
  simpa [Segment.width, Segment.render] using hx

theorem Layout.filledTo_width_pos {k : Nat} {L : Layout α} (hL : ∀ q ∈ L.holes, q.2.original ≠ []) :
    ∀ s ∈ Layout.filledTo k L, 0 < s.width size := by
  induction L with
  | nil => exact fun s hs => absurd hs List.not_mem_nil
  | cons s L ih =>
      intro s' hs'
      cases s with
      | lit xs =>
          rw [filledTo_lit] at hs'
          rcases List.mem_append.1 hs' with hs' | hs'
          · exact Layout.symbols_width_pos hsize xs s' hs'
          · exact ih hL s' hs'
      | hole j h =>
          rw [filledTo_hole] at hs'
          rcases List.mem_append.1 hs' with hs' | hs'
          · by_cases hj : j < k
            · rw [if_pos hj] at hs'
              obtain rfl := List.mem_singleton.1 hs'
              have hne := hL (j, h) List.mem_cons_self
              obtain ⟨x, xs, hx⟩ := List.exists_cons_of_ne_nil hne
              have hpos := hsize x
              simp only at hx
              simp only [Segment.width, Segment.render, hx, Bool.false_eq_true, if_false, extent_cons]
              omega
            · rw [if_neg hj] at hs'
              exact Layout.symbols_width_pos hsize _ s' hs'
          · exact ih (fun q hq => hL q (List.mem_cons_of_mem _ hq)) s' hs'

/-- Once its hole is filled an edit finds its place, and the next holes are those up to it. -/
theorem Layout.Placed.fill_filledTo (h : L.Placed size edits) (htexts : ∀ e ∈ edits, e.text ≠ []) {k : Nat}
    {e : TextEdit α} (he : edits[k]? = some e) :
    ∃ start : Nat, (start : Int) = e.start + -Layout.growth size (fun j => decide (j < k)) L
      ∧ (L.filledTo k).fill size k e.text start e.length = some (L.filledTo (k + 1)) := by
  have hpos := Layout.filledTo_width_pos hsize (k := k) (h.original_ne_nil htexts)
  obtain ⟨A, hole, B, rfl, hA, hB, horiginal, hlength, hplace⟩ := h.split_at he
  have hnow : Layout.filledTo k (A ++ .hole k hole :: B)
      = Layout.filledTo k A ++ Layout.symbols hole.placeholder ++ Layout.filledTo k B := by
    rw [Layout.filledTo_append, Layout.filledTo_hole, if_neg (Nat.lt_irrefl _), List.append_assoc]
  have hnext : Layout.filledTo (k + 1) (A ++ .hole k hole :: B)
      = Layout.filledTo k A ++ .hole k hole :: Layout.filledTo k B := by
    rw [Layout.filledTo_append, Layout.filledTo_hole, if_pos (Nat.lt_succ_self _), Layout.filledTo_succ hA,
      Layout.filledTo_succ hB]
    rfl
  refine ⟨extent (Segment.width size) (Layout.filledTo k A), ?_, ?_⟩
  · rw [Layout.filledTo_extent, hplace, Layout.growth_append, Layout.growth_hole]
    simp only [Nat.lt_irrefl, decide_false, Bool.false_eq_true, if_false]
    omega
  · rw [hnow] at hpos
    rw [hnow, hnext]
    rw [Layout.fill_append (fun s hs => hpos s (List.mem_append_left _ (List.mem_append_left _ hs)))
      (Layout.symbols_width_pos hsize hole.placeholder) (Layout.symbols_holes _) rfl
      (by rw [Layout.extent_width, Layout.symbols_render, hlength])]
    rw [Layout.symbols_render, ← horiginal]

/-- Where there are places for all the edits, the edits find them. -/
theorem Layout.Placed.replay_filledTo (h : L.Placed size edits) (htexts : ∀ e ∈ edits, e.text ≠ [])
    (hsplit : edits = earlier ++ later) :
    Godwit.replay size later (-Layout.growth size (fun j => decide (j < earlier.length)) L) earlier.length
        (L.filledTo earlier.length)
      = some (L.filledTo edits.length) := by
  induction later generalizing earlier with
  | nil =>
      rw [List.append_nil] at hsplit
      rw [hsplit]
      rfl
  | cons e later ih =>
      have he : edits[earlier.length]? = some e := by
        rw [hsplit, List.getElem?_append_right (Nat.le_refl _), Nat.sub_self]
        rfl
      obtain ⟨start, hstart, hfill⟩ := h.fill_filledTo hsize htexts he
      have hnext := @ih (earlier ++ [e]) (by rw [hsplit, List.append_assoc]; rfl)
      rw [List.length_append, List.length_singleton, h.growth_succ he, neg_sub, ← neg_add_eq_sub] at hnext
      rw [Godwit.replay, ← hstart, if_neg (by omega), Int.toNat_natCast, hfill]
      exact hnext

/-- The marked text that the edits leave has the holes of the layout. -/
theorem Layout.Placed.replay_symbols (h : L.Placed size edits) (htexts : ∀ e ∈ edits, e.text ≠ []) :
    ∃ L', Godwit.replay size edits 0 0 (Layout.symbols (L.render fun _ => true)) = some L' ∧ L'.holes = L.holes := by
  refine ⟨L.filledTo edits.length, ?_, ?_⟩
  · have hrun := @Layout.Placed.replay_filledTo α size edits [] edits L hsize h htexts rfl
    rw [List.length_nil, Layout.filledTo_zero] at hrun
    have hzero : Layout.growth size (fun j => decide (j < 0)) L = 0 :=
      Layout.growth_eq_zero size fun q _ => by simp
    rw [hzero] at hrun
    exact hrun
  · rw [Layout.filledTo_holes, List.filter_eq_self]
    intro q hq
    exact decide_eq_true (h.number_lt hq)

end Positive

end Replay

end Sized

end Godwit
