import Mathlib.Algebra.BigOperators.Group.List.Basic
import Mathlib.Data.List.Perm.Basic
import Mathlib.Data.List.Nodup
import Mathlib.Tactic.Ring

set_option autoImplicit false

/-! # Texts with numbered holes

A text is a list of symbols of given sizes, addressed by offsets: `replaceRange?` and `slice?` are
undefined when an offset falls inside a symbol or past the end. A `Layout` is a text cut into
literals and numbered holes, each of which shows either its original or its placeholder; `cut` opens
one more hole inside a literal. The file says where a hole stands when some of the holes show
originals and the others placeholders, and how far that place moves when they are swapped. -/

namespace Godwit

section Sized

variable {α : Type} (size : α → Nat)

/-! ## Offsets into a text -/

/-- The size of a whole text. -/
def extent (xs : List α) : Nat := (xs.map size).sum

@[simp] theorem extent_nil : extent size ([] : List α) = 0 := rfl

@[simp] theorem extent_cons (x : α) (xs : List α) :
    extent size (x :: xs) = size x + extent size xs := by
  simp [extent]

@[simp] theorem extent_append (xs ys : List α) :
    extent size (xs ++ ys) = extent size xs + extent size ys := by
  simp [extent]

/-- Split a text at an offset, which must be a boundary between two symbols. -/
def splitAt? : List α → Nat → Option (List α × List α)
  | xs, 0 => some ([], xs)
  | [], _ + 1 => none
  | x :: xs, n + 1 =>
    if size x ≤ n + 1 then (splitAt? xs (n + 1 - size x)).map fun p => (x :: p.1, p.2) else none

/-- The part of a text between two offsets. -/
def slice? (xs : List α) (start stop : Nat) : Option (List α) := do
  if start ≤ stop then
    let (_, rest) ← splitAt? size xs start
    let (part, _) ← splitAt? size rest (stop - start)
    some part
  else none

/-- The text with the part between two offsets replaced. -/
def replaceRange? (xs : List α) (start stop : Nat) (new : List α) : Option (List α) := do
  if start ≤ stop then
    let (before, rest) ← splitAt? size xs start
    let (_, after) ← splitAt? size rest (stop - start)
    some (before ++ new ++ after)
  else none

theorem splitAt?_eq_some {xs l r : List α} {n : Nat} (h : splitAt? size xs n = some (l, r)) :
    xs = l ++ r ∧ extent size l = n := by
  induction xs generalizing n l with
  | nil =>
      cases n with
      | zero =>
          obtain ⟨rfl, rfl⟩ : [] = l ∧ [] = r := by simpa [splitAt?] using h
          exact ⟨rfl, rfl⟩
      | succ n => simp [splitAt?] at h
  | cons x xs ih =>
      cases n with
      | zero =>
          obtain ⟨rfl, rfl⟩ : [] = l ∧ x :: xs = r := by simpa [splitAt?] using h
          exact ⟨rfl, rfl⟩
      | succ n =>
          simp only [splitAt?] at h
          split_ifs at h with hle
          obtain ⟨⟨l', r'⟩, hsplit, hlr⟩ := Option.map_eq_some_iff.1 h
          obtain ⟨rfl, rfl⟩ : x :: l' = l ∧ r' = r := by simpa using hlr
          obtain ⟨hxs, hext⟩ := ih hsplit
          refine ⟨by rw [hxs, List.cons_append], ?_⟩
          rw [extent_cons, hext]
          omega

section Positive

variable (hsize : ∀ a, 0 < size a)

include hsize

theorem splitAt?_append (l r : List α) : splitAt? size (l ++ r) (extent size l) = some (l, r) := by
  induction l with
  | nil => simp [splitAt?]
  | cons x l ih =>
      have hx := hsize x
      obtain ⟨n, hn⟩ : ∃ n, extent size (x :: l) = n + 1 :=
        ⟨size x - 1 + extent size l, by rw [extent_cons]; omega⟩
      rw [List.cons_append, hn, splitAt?, ← hn, extent_cons, if_pos (by omega),
        Nat.add_sub_cancel_left, ih]
      rfl

/-- A text cut at two places: the first cut falls into what the second one leaves on the left. -/
theorem append_eq_of_extent_le {l r l' r' : List α} (h : l ++ r = l' ++ r')
    (hle : extent size l ≤ extent size l') : ∃ m, l' = l ++ m ∧ r = m ++ r' := by
  rcases List.append_eq_append_iff.1 h with ⟨m, rfl, hr⟩ | ⟨m, rfl, hr⟩
  · exact ⟨m, rfl, hr⟩
  · cases m with
    | nil => exact ⟨[], by simp, by simpa using hr.symm⟩
    | cons x m =>
        have hx := hsize x
        simp only [extent_append, extent_cons] at hle
        omega

theorem slice?_append (l m r : List α) :
    slice? size (l ++ m ++ r) (extent size l) (extent size l + extent size m) = some m := by
  rw [slice?, if_pos (by omega), List.append_assoc, splitAt?_append size hsize]
  simp [splitAt?_append size hsize]

omit hsize in
theorem slice?_eq_some {xs part : List α} {start stop : Nat}
    (h : slice? size xs start stop = some part) :
    ∃ l r, xs = l ++ part ++ r ∧ extent size l = start ∧ stop = start + extent size part := by
  simp only [slice?] at h
  split_ifs at h with hle
  simp only [Option.bind_eq_bind, Option.bind_eq_some_iff, Option.some.injEq] at h
  obtain ⟨⟨l, rest⟩, hl, ⟨part', r⟩, hr, rfl⟩ := h
  obtain ⟨rfl, hstart⟩ := splitAt?_eq_some size hl
  obtain ⟨rfl, hstop⟩ := splitAt?_eq_some size hr
  exact ⟨l, r, by simp, hstart, by simp only; omega⟩

theorem replaceRange?_append (l m r new : List α) :
    replaceRange? size (l ++ m ++ r) (extent size l) (extent size l + extent size m) new
      = some (l ++ new ++ r) := by
  rw [replaceRange?, if_pos (by omega), List.append_assoc, splitAt?_append size hsize]
  simp [splitAt?_append size hsize]

end Positive

/-! ## Layouts -/

/-- What a hole may show. -/
structure Hole (α : Type) where
  original : List α
  placeholder : List α
  deriving DecidableEq, Repr

/-- A stretch of a text: fixed symbols, or the hole of a given number. -/
inductive Segment (α : Type) where
  | lit (xs : List α)
  | hole (k : Nat) (h : Hole α)
  deriving DecidableEq, Repr

/-- A text with holes. -/
abbrev Layout (α : Type) := List (Segment α)

/-- How much longer the placeholder is than the original. -/
def Hole.growth (h : Hole α) : Int := extent size h.placeholder - extent size h.original

/-- The text of a segment when the holes in `masked` show their placeholders. -/
def Segment.render (masked : Nat → Bool) : Segment α → List α
  | .lit xs => xs
  | .hole k h => if masked k then h.placeholder else h.original

/-- The text with the placeholder in the masked holes and the original in the others. -/
def Layout.render (masked : Nat → Bool) (L : Layout α) : List α :=
  L.flatMap (Segment.render masked)

/-- The holes with their numbers, in order. -/
def Layout.holes : Layout α → List (Nat × Hole α)
  | [] => []
  | .lit _ :: rest => Layout.holes rest
  | .hole k h :: rest => (k, h) :: Layout.holes rest

/-- The segments to the left of hole `k`. -/
def Layout.before (k : Nat) : Layout α → Layout α
  | [] => []
  | .lit xs :: rest => .lit xs :: Layout.before k rest
  | .hole j h :: rest => if j = k then [] else .hole j h :: Layout.before k rest

/-- The segments to the right of hole `k`. -/
def Layout.after (k : Nat) : Layout α → Layout α
  | [] => []
  | .lit _ :: rest => Layout.after k rest
  | .hole j _ :: rest => if j = k then rest else Layout.after k rest

/-- Open hole `k`, showing `placeholder`, over the symbols between two offsets of the text with
    every placeholder shown. The symbols must lie in one literal. -/
def Layout.cut (placeholder : List α) (k : Nat) : Layout α → Nat → Nat → Option (Layout α)
  | [], _, _ => none
  | .lit xs :: rest, start, stop =>
    if stop ≤ extent size xs then
      match splitAt? size xs start with
      | none => none
      | some (l, tail) =>
        match splitAt? size tail (stop - start) with
        | none => none
        | some (original, r) =>
          some (.lit l :: .hole k ⟨original, placeholder⟩ :: .lit r :: rest)
    else if extent size xs ≤ start then
      (Layout.cut placeholder k rest (start - extent size xs) (stop - extent size xs)).map
        (.lit xs :: ·)
    else none
  | .hole j h :: rest, start, stop =>
    if extent size h.placeholder ≤ start then
      (Layout.cut placeholder k rest (start - extent size h.placeholder)
        (stop - extent size h.placeholder)).map (.hole j h :: ·)
    else none

/-- The length changes of the holes of `L` whose number satisfies `p`. -/
def Layout.growth (p : Nat → Bool) (L : Layout α) : Int :=
  ((L.holes.filter fun q => p q.1).map fun q => q.2.growth size).sum

/-- How far hole `k` is from the place it was opened at, when the holes are opened and closed again
    in the order of their numbers: the holes opened later on its left have moved it, and those
    opened earlier on its right have not. -/
def Layout.drift (k : Nat) (L : Layout α) : Int :=
  Layout.growth size (fun j => decide (k < j)) (L.before k)
    + Layout.growth size (fun j => decide (j < k)) (L.after k)

/-- No hole drifts. -/
def Layout.Balanced (L : Layout α) : Prop := ∀ q ∈ L.holes, L.drift size q.1 = 0

instance (L : Layout α) : Decidable (L.Balanced size) :=
  inferInstanceAs (Decidable (∀ q ∈ L.holes, L.drift size q.1 = 0))

/-! ## Rendering -/

section Render

variable (masked : Nat → Bool)

@[simp] theorem Layout.render_nil : Layout.render masked ([] : Layout α) = [] := rfl

@[simp] theorem Layout.render_cons (s : Segment α) (L : Layout α) :
    Layout.render masked (s :: L) = s.render masked ++ Layout.render masked L := rfl

@[simp] theorem Layout.render_append (L M : Layout α) :
    Layout.render masked (L ++ M) = Layout.render masked L ++ Layout.render masked M := by
  simp [Layout.render]

@[simp] theorem Layout.holes_append (L M : Layout α) :
    Layout.holes (L ++ M) = Layout.holes L ++ Layout.holes M := by
  induction L with
  | nil => rfl
  | cons s L ih => cases s <;> simp [Layout.holes, ih]

/-- Only the holes of the layout matter. -/
theorem Layout.render_congr {masked masked' : Nat → Bool} {L : Layout α}
    (h : ∀ q ∈ L.holes, masked q.1 = masked' q.1) :
    Layout.render masked L = Layout.render masked' L := by
  induction L with
  | nil => rfl
  | cons s L ih =>
      cases s with
      | lit xs =>
          simp only [Layout.render_cons, Segment.render]
          rw [ih h]
      | hole k hk =>
          simp only [Layout.holes, List.mem_cons, forall_eq_or_imp] at h
          simp only [Layout.render_cons, Segment.render, h.1]
          rw [ih h.2]

end Render

/-! ## Around one hole -/

/-- A layout is what stands left of a hole, the hole, and what stands right of it. -/
theorem Layout.split_at_hole {L : Layout α} {k : Nat} {h : Hole α} (hmem : (k, h) ∈ L.holes)
    (hnodup : (L.holes.map Prod.fst).Nodup) :
    L = L.before k ++ .hole k h :: L.after k := by
  induction L with
  | nil => simp [Layout.holes] at hmem
  | cons s L ih =>
      cases s with
      | lit xs => simpa [Layout.before, Layout.after] using ih hmem hnodup
      | hole j hj =>
          simp only [Layout.holes, List.map_cons, List.nodup_cons] at hnodup
          rcases List.mem_cons.1 hmem with heq | hmem
          · obtain ⟨rfl, rfl⟩ := Prod.mk.inj heq
            simp [Layout.before, Layout.after]
          · have hne : j ≠ k := by
              rintro rfl
              exact hnodup.1 (List.mem_map_of_mem hmem)
            simpa [Layout.before, Layout.after, hne] using ih hmem hnodup.2

theorem Layout.not_mem_before (L : Layout α) (k : Nat) (h : Hole α) :
    (k, h) ∉ (L.before k).holes := by
  induction L with
  | nil => simp [Layout.before, Layout.holes]
  | cons s L ih =>
      cases s with
      | lit xs => simpa [Layout.before, Layout.holes] using ih
      | hole j hj =>
          by_cases hjk : j = k
          · simp [Layout.before, hjk, Layout.holes]
          · simp [Layout.before, hjk, Layout.holes, ih, Ne.symm hjk]

theorem Layout.not_mem_after {L : Layout α} {k : Nat} {h : Hole α} (hmem : (k, h) ∈ L.holes)
    (hnodup : (L.holes.map Prod.fst).Nodup) (h' : Hole α) : (k, h') ∉ (L.after k).holes := by
  intro hafter
  rw [Layout.split_at_hole hmem hnodup] at hnodup
  simp only [Layout.holes_append, Layout.holes, List.map_append, List.map_cons] at hnodup
  have := (List.nodup_append.1 hnodup).2.1
  rw [List.nodup_cons] at this
  exact this.1 (List.mem_map_of_mem hafter)

/-! ## Opening a hole -/

/-- What `cut` can do: it splits one literal in three. -/
theorem Layout.cut_eq_some {placeholder : List α} {k start stop : Nat} {L L' : Layout α}
    (h : L.cut size placeholder k start stop = some L') (hle : start ≤ stop) :
    ∃ P l original r Q, L = P ++ .lit (l ++ original ++ r) :: Q ∧
      L' = P ++ .lit l :: .hole k ⟨original, placeholder⟩ :: .lit r :: Q ∧
      start = extent size (Layout.render (fun _ => true) P) + extent size l ∧
      stop = start + extent size original := by
  induction L generalizing start stop L' with
  | nil => simp [Layout.cut] at h
  | cons s L ih =>
      cases s with
      | lit xs =>
          simp only [Layout.cut] at h
          split_ifs at h with hin hpast
          · split at h
            · simp at h
            · rename_i l tail hl
              split at h
              · simp at h
              · rename_i original r hr
                obtain ⟨rfl, hlen⟩ := splitAt?_eq_some size hl
                obtain ⟨rfl, hlen'⟩ := splitAt?_eq_some size hr
                refine ⟨[], l, original, r, L, by simp, ?_, by simp [hlen], by omega⟩
                simpa using h.symm
          · obtain ⟨M, hM, rfl⟩ := Option.map_eq_some_iff.1 h
            obtain ⟨P, l, original, r, Q, rfl, rfl, hs, he⟩ := ih hM (by omega)
            refine ⟨.lit xs :: P, l, original, r, Q, rfl, rfl, ?_, by omega⟩
            simp only [Layout.render_cons, Segment.render, extent_append]
            omega
      | hole j hj =>
          simp only [Layout.cut] at h
          split_ifs at h with hpast
          obtain ⟨M, hM, rfl⟩ := Option.map_eq_some_iff.1 h
          obtain ⟨P, l, original, r, Q, rfl, rfl, hs, he⟩ := ih hM (by omega)
          refine ⟨.hole j hj :: P, l, original, r, Q, rfl, rfl, ?_, by omega⟩
          simp only [Layout.render_cons, Segment.render, extent_append, if_pos]
          omega

/-- Symbols in the last literal can be cut out. -/
theorem Layout.cut_last (hsize : ∀ a, 0 < size a) (placeholder : List α) (k : Nat) (P : Layout α)
    (l original r : List α) (hne : original ≠ []) :
    Layout.cut size placeholder k (P ++ [.lit (l ++ original ++ r)])
        (extent size (Layout.render (fun _ => true) P) + extent size l)
        (extent size (Layout.render (fun _ => true) P) + extent size l + extent size original)
      = some (P ++ [.lit l, .hole k ⟨original, placeholder⟩, .lit r]) := by
  have hpos : 0 < extent size original := by
    cases original with
    | nil => exact absurd rfl hne
    | cons x xs =>
        have := hsize x
        rw [extent_cons]
        omega
  induction P with
  | nil =>
      simp [Layout.cut, splitAt?_append size hsize]
  | cons s P ih =>
      cases s with
      | lit xs =>
          simp only [List.cons_append, Layout.cut, Layout.render_cons, Segment.render,
            extent_append] at ih ⊢
          rw [if_neg (by omega), if_pos (by omega), Nat.add_assoc (extent size xs),
            Nat.add_assoc (extent size xs), Nat.add_sub_cancel_left, Nat.add_sub_cancel_left, ih]
          rfl
      | hole j h =>
          simp only [List.cons_append, Layout.cut, Layout.render_cons, Segment.render, if_true,
            extent_append] at ih ⊢
          rw [if_pos (by omega), Nat.add_assoc (extent size h.placeholder),
            Nat.add_assoc (extent size h.placeholder), Nat.add_sub_cancel_left,
            Nat.add_sub_cancel_left, ih]
          rfl

section Opened

variable {P Q : Layout α} {l original r placeholder : List α} {n : Nat}

theorem Layout.holes_opened :
    (P ++ .lit l :: .hole n ⟨original, placeholder⟩ :: .lit r :: Q : Layout α).holes.Perm
      ((n, ⟨original, placeholder⟩) :: (P ++ .lit (l ++ original ++ r) :: Q : Layout α).holes) := by
  simp only [Layout.holes_append, Layout.holes]
  exact List.perm_middle

/-- While the new hole shows its original, the text left of another hole has not changed. -/
theorem Layout.render_before_opened {masked : Nat → Bool} (hn : masked n = false) {k : Nat}
    (hk : k ≠ n) :
    Layout.render masked ((P ++ .lit l :: .hole n ⟨original, placeholder⟩ :: .lit r :: Q :
        Layout α).before k)
      = Layout.render masked ((P ++ .lit (l ++ original ++ r) :: Q : Layout α).before k) := by
  induction P with
  | nil => simp [Layout.before, Segment.render, hn, Ne.symm hk]
  | cons s P ih =>
      cases s with
      | lit xs => simpa [Layout.before] using ih
      | hole j hj =>
          by_cases hjk : j = k
          · simp [Layout.before, hjk]
          · simpa [Layout.before, hjk] using ih

/-- Left of the new hole stand the segments before the literal, and the literal's first part. -/
theorem Layout.before_opened (hn : ∀ h, (n, h) ∉ P.holes) :
    (P ++ .lit l :: .hole n ⟨original, placeholder⟩ :: .lit r :: Q : Layout α).before n
      = P ++ [.lit l] := by
  induction P with
  | nil => simp [Layout.before]
  | cons s P ih =>
      cases s with
      | lit xs => simpa [Layout.before, Layout.holes] using ih hn
      | hole j hj =>
          have hjn : j ≠ n := by
            rintro rfl
            exact hn hj (by simp [Layout.holes])
          have hP : ∀ h, (n, h) ∉ Layout.holes P :=
            fun h hmem => hn h (List.mem_cons_of_mem _ hmem)
          simpa [Layout.before, hjn] using ih hP

end Opened

/-! ## Drift -/

theorem Layout.growth_congr {p p' : Nat → Bool} {L : Layout α}
    (h : ∀ q ∈ L.holes, p q.1 = p' q.1) : Layout.growth size p L = Layout.growth size p' L := by
  rw [Layout.growth, Layout.growth, List.filter_congr h]

theorem Layout.growth_eq_zero {p : Nat → Bool} {L : Layout α}
    (h : ∀ q ∈ L.holes, p q.1 = false) : Layout.growth size p L = 0 := by
  rw [Layout.growth, List.filter_eq_nil_iff.2 (by simpa using h)]
  rfl

/-- Holes numbered from left to right do not drift. -/
theorem Layout.balanced_of_ordered {L : Layout α}
    (h : (L.holes.map Prod.fst).Pairwise (· < ·)) : L.Balanced size := by
  rintro ⟨k, hk⟩ hmem
  have hnodup : (L.holes.map Prod.fst).Nodup := h.imp ne_of_lt
  rw [Layout.split_at_hole hmem hnodup] at h
  simp only [Layout.holes_append, Layout.holes, List.map_append, List.map_cons] at h
  obtain ⟨-, hafter, hbefore⟩ := List.pairwise_append.1 h
  rw [Layout.drift, Layout.growth_eq_zero, Layout.growth_eq_zero, add_zero]
  · intro q hq
    have := (List.pairwise_cons.1 hafter).1 q.1 (List.mem_map_of_mem hq)
    simp only [decide_eq_false_iff_not]
    omega
  · intro q hq
    have := hbefore q.1 (List.mem_map_of_mem hq) k List.mem_cons_self
    simp only [decide_eq_false_iff_not]
    omega

/-- The extent of a text with some holes masked exceeds that of the original text by the growth of
    these holes. -/
theorem Layout.extent_render (masked : Nat → Bool) (L : Layout α) :
    (extent size (Layout.render masked L) : Int)
      = extent size (Layout.render (fun _ => false) L) + Layout.growth size masked L := by
  induction L with
  | nil => simp [Layout.growth, Layout.holes]
  | cons s L ih =>
      cases s with
      | lit xs =>
          have hgrowth : Layout.growth size masked (.lit xs :: L) = Layout.growth size masked L := rfl
          simp only [Layout.render_cons, Segment.render, extent_append, Nat.cast_add, hgrowth]
          omega
      | hole k h =>
          simp only [Layout.render_cons, Segment.render, extent_append, Nat.cast_add, ih]
          by_cases hk : masked k = true
          · simp only [Layout.growth, Layout.holes, hk, List.filter_cons_of_pos, List.map_cons,
              List.sum_cons, Hole.growth, if_true, Bool.false_eq_true, if_false]
            ring
          · simp only [Layout.growth, Layout.holes, hk, List.filter_cons_of_neg, not_false_eq_true,
              Bool.false_eq_true, if_false]
            ring

/-- Where hole `k` stands once the holes before it show originals again, against the place it was
    opened at corrected by the growth of those holes: the difference is its drift. -/
theorem Layout.place_eq_iff {L : Layout α} {k : Nat} {h : Hole α} (hmem : (k, h) ∈ L.holes)
    (hnodup : (L.holes.map Prod.fst).Nodup) :
    (extent size (Layout.render (fun j => decide (k ≤ j)) (L.before k)) : Int)
        = extent size (Layout.render (fun j => decide (j < k)) (L.before k))
          - Layout.growth size (fun j => decide (j < k)) L
      ↔ L.drift size k = 0 := by
  have hbefore : Layout.growth size (fun j => decide (k ≤ j)) (L.before k)
      = Layout.growth size (fun j => decide (k < j)) (L.before k) := by
    refine Layout.growth_congr size fun q hq => ?_
    have hne : q.1 ≠ k := by
      intro he
      obtain ⟨j, hj⟩ := q
      obtain rfl : j = k := he
      exact Layout.not_mem_before L j hj hq
    simp only [decide_eq_decide]
    omega
  have hsplit : Layout.growth size (fun j => decide (j < k)) L
      = Layout.growth size (fun j => decide (j < k)) (L.before k)
        + Layout.growth size (fun j => decide (j < k)) (L.after k) := by
    conv_lhs => rw [Layout.split_at_hole hmem hnodup]
    simp [Layout.growth, Layout.holes]
  rw [Layout.extent_render, Layout.extent_render size (fun j => decide (j < k)), hbefore, hsplit,
    Layout.drift]
  omega

/-- Closing hole `k` where it stands. -/
theorem Layout.close_hole (hsize : ∀ a, 0 < size a) {L : Layout α} {k : Nat} {h : Hole α}
    (hmem : (k, h) ∈ L.holes) (hnodup : (L.holes.map Prod.fst).Nodup) :
    replaceRange? size (Layout.render (fun j => decide (k ≤ j)) L)
        (extent size (Layout.render (fun j => decide (k ≤ j)) (L.before k)))
        (extent size (Layout.render (fun j => decide (k ≤ j)) (L.before k))
          + extent size h.placeholder) h.original
      = some (Layout.render (fun j => decide (k + 1 ≤ j)) L) := by
  have hrest : ∀ M : Layout α, (∀ h', (k, h') ∉ M.holes) →
      Layout.render (fun j => decide (k + 1 ≤ j)) M
        = Layout.render (fun j => decide (k ≤ j)) M := by
    intro M hM
    refine Layout.render_congr fun q hq => ?_
    have hne : q.1 ≠ k := by
      intro he
      obtain ⟨j, hj⟩ := q
      obtain rfl : j = k := he
      exact hM hj hq
    simp only [decide_eq_decide]
    omega
  have hL := Layout.split_at_hole hmem hnodup
  have hnow : Layout.render (fun j => decide (k ≤ j)) L
      = Layout.render (fun j => decide (k ≤ j)) (L.before k) ++ h.placeholder
        ++ Layout.render (fun j => decide (k ≤ j)) (L.after k) := by
    conv_lhs => rw [hL]
    simp [Segment.render]
  have hnext : Layout.render (fun j => decide (k + 1 ≤ j)) L
      = Layout.render (fun j => decide (k ≤ j)) (L.before k) ++ h.original
        ++ Layout.render (fun j => decide (k ≤ j)) (L.after k) := by
    conv_lhs => rw [hL]
    simp only [Layout.render_append, Layout.render_cons, Segment.render]
    rw [hrest _ (Layout.not_mem_before L k), hrest _ (Layout.not_mem_after hmem hnodup)]
    simp
  rw [hnow, hnext]
  exact replaceRange?_append size hsize _ _ _ _

end Sized

end Godwit
