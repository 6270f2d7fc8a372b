import Mathlib.Data.List.Basic
import Mathlib.Tactic.ByContra

set_option autoImplicit false

/-! # Regular expressions over classes

Sequences of classes of symbols, optional and repeated ones and word boundaries. `run` finds the match at a
place that a backtracking search prefers, `Matches` says what is a match there, given the symbols next to it.
`scan` is the search for one match after another, from left to right: it cuts a text into matches and
single symbols that are in none. -/

namespace Godwit

section Regex

variable {α : Type}

/-! ## Expressions -/

/-- A part of an expression. -/
inductive Atom (α : Type) where
  | one (p : α → Bool)
  /-- A symbol of the class, if there is one. -/
  | opt (p : α → Bool)
  /-- As many symbols of the class as there are. -/
  | many (p : α → Bool)
  | boundary

/-- An expression: its parts in order. -/
abbrev ClassRegex (α : Type) := List (Atom α)

/-- The symbol before the end of a text that comes after `prev`. -/
def lastOr (prev : Option α) (s : List α) : Option α := s.getLast?.or prev

@[simp] theorem lastOr_nil (prev : Option α) : lastOr prev ([] : List α) = prev := by simp [lastOr]

@[simp] theorem lastOr_cons (prev : Option α) (c : α) (s : List α) :
    lastOr prev (c :: s) = lastOr (some c) s := by
  cases s with
  | nil => simp [lastOr]
  | cons d s => simp [lastOr, List.getLast?_cons]

@[simp] theorem lastOr_append (prev : Option α) (s t : List α) :
    lastOr prev (s ++ t) = lastOr (lastOr prev s) t := by
  induction s generalizing prev with
  | nil => simp
  | cons c s ih => simp [ih]

variable (word : α → Bool)

/-- Whether the symbol next to a place is part of a word; there is none at the ends of the text. -/
def wordAt (c : Option α) : Bool := (c.map word).getD false

/-- What a match is, between the symbol before it and the symbol after it. -/
inductive Matches : ClassRegex α → Option α → List α → Option α → Prop where
  | nil (prev next : Option α) : Matches [] prev [] next
  | one {p : α → Bool} {re : ClassRegex α} {prev next : Option α} {c : α} {s : List α} (hc : p c = true)
      (h : Matches re (some c) s next) : Matches (.one p :: re) prev (c :: s) next
  | skip {p : α → Bool} {re : ClassRegex α} {prev next : Option α} {s : List α}
      (h : Matches re prev s next) : Matches (.opt p :: re) prev s next
  | take {p : α → Bool} {re : ClassRegex α} {prev next : Option α} {c : α} {s : List α} (hc : p c = true)
      (h : Matches re (some c) s next) : Matches (.opt p :: re) prev (c :: s) next
  | stop {p : α → Bool} {re : ClassRegex α} {prev next : Option α} {s : List α}
      (h : Matches re prev s next) : Matches (.many p :: re) prev s next
  | more {p : α → Bool} {re : ClassRegex α} {prev next : Option α} {c : α} {s : List α} (hc : p c = true)
      (h : Matches (.many p :: re) (some c) s next) : Matches (.many p :: re) prev (c :: s) next
  | boundary {re : ClassRegex α} {prev next : Option α} {s : List α}
      (hb : wordAt word prev ≠ wordAt word (s.head?.or next)) (h : Matches re prev s next) :
      Matches (.boundary :: re) prev s next

/-! ## The match at a place -/

/-- The repeated class, longest first, and what comes after it. -/
def runMany (p : α → Bool) (after : Option α → List α → Option Nat) : Option α → List α → Option Nat
  | prev, [] => after prev []
  | prev, c :: rest =>
    if p c then ((runMany p after (some c) rest).map (· + 1)).or (after prev (c :: rest))
    else after prev (c :: rest)

/-- The length of the match that is tried first. -/
def run : ClassRegex α → Option α → List α → Option Nat
  | [], _, _ => some 0
  | .one _ :: _, _, [] => none
  | .one p :: re, _, c :: rest => if p c then (run re (some c) rest).map (· + 1) else none
  | .opt _ :: re, prev, [] => run re prev []
  | .opt p :: re, prev, c :: rest =>
    if p c then ((run re (some c) rest).map (· + 1)).or (run re prev (c :: rest)) else run re prev (c :: rest)
  | .many p :: re, prev, rest => runMany p (run re) prev rest
  | .boundary :: re, prev, rest =>
    if wordAt word prev ≠ wordAt word rest.head? then run re prev rest else none

/-- The text splits into a match of this length and the rest. -/
def MatchedPrefix (re : ClassRegex α) (prev : Option α) (text : List α) (n : Nat) : Prop :=
  ∃ s rest, text = s ++ rest ∧ s.length = n ∧ Matches word re prev s rest.head?

variable {word}

theorem runMany_sound {p : α → Bool} {re : ClassRegex α} {after : Option α → List α → Option Nat}
    (hafter : ∀ prev text n, after prev text = some n → MatchedPrefix word re prev text n)
    {prev : Option α} {text : List α} {n : Nat} (h : runMany p after prev text = some n) :
    MatchedPrefix word (.many p :: re) prev text n := by
  induction text generalizing prev n with
  | nil =>
      obtain ⟨s, rest, htext, hn, hmatch⟩ := hafter prev [] n h
      exact ⟨s, rest, htext, hn, .stop hmatch⟩
  | cons c text ih =>
      have hstop : after prev (c :: text) = some n → MatchedPrefix word (.many p :: re) prev (c :: text) n := by
        intro hafter'
        obtain ⟨s, rest, htext, hn, hmatch⟩ := hafter prev _ n hafter'
        exact ⟨s, rest, htext, hn, .stop hmatch⟩
      rw [runMany] at h
      split_ifs at h with hc
      · cases hmore : runMany p after (some c) text with
        | none => exact hstop (by simpa [hmore] using h)
        | some m =>
            obtain rfl : m + 1 = n := by simpa [hmore] using h
            obtain ⟨s, rest, rfl, hn, hmatch⟩ := ih hmore
            exact ⟨c :: s, rest, rfl, by simp [hn], .more hc hmatch⟩
      · exact hstop h

theorem run_sound {re : ClassRegex α} {prev : Option α} {text : List α} {n : Nat}
    (h : run word re prev text = some n) : MatchedPrefix word re prev text n := by
  induction re generalizing prev text n with
  | nil =>
      obtain rfl : 0 = n := by simpa [run] using h
      exact ⟨[], text, rfl, rfl, .nil _ _⟩
  | cons atom re ih =>
      cases atom with
      | one p =>
          cases text with
          | nil => simp [run] at h
          | cons c text =>
              rw [run] at h
              split_ifs at h with hc
              obtain ⟨m, hm, rfl⟩ := Option.map_eq_some_iff.1 h
              obtain ⟨s, rest, rfl, hn, hmatch⟩ := ih hm
              exact ⟨c :: s, rest, rfl, by simp [hn], .one hc hmatch⟩
      | opt p =>
          -- an optional atom that is not taken, or is given back
          have hskip : run word re prev text = some n → MatchedPrefix word (.opt p :: re) prev text n := by
            intro hrest
            obtain ⟨s, rest, htext, hn, hmatch⟩ := ih hrest
            exact ⟨s, rest, htext, hn, .skip hmatch⟩
          cases text with
          | nil => exact hskip h
          | cons c text =>
              rw [run] at h
              split_ifs at h with hc
              · cases htake : run word re (some c) text with
                | none => exact hskip (by simpa [htake] using h)
                | some m =>
                    obtain rfl : m + 1 = n := by simpa [htake] using h
                    obtain ⟨s, rest, rfl, hn, hmatch⟩ := ih htake
                    exact ⟨c :: s, rest, rfl, by simp [hn], .take hc hmatch⟩
              · exact hskip h
      | many p => exact runMany_sound (fun prev text n => ih) h
      | boundary =>
          rw [run] at h
          split_ifs at h with hb
          obtain ⟨s, rest, rfl, hn, hmatch⟩ := ih h
          refine ⟨s, rest, rfl, hn, .boundary ?_ hmatch⟩
          simpa using hb

theorem runMany_isSome_of_after {p : α → Bool} {after : Option α → List α → Option Nat} {prev : Option α}
    {text : List α} (h : (after prev text).isSome) : (runMany p after prev text).isSome := by
  cases text with
  | nil => exact h
  | cons c text =>
      rw [runMany]
      split_ifs
      · simp [h]
      · exact h

/-- Where there is a match the search finds one. -/
theorem run_complete {re : ClassRegex α} {prev next : Option α} {s rest : List α}
    (h : Matches word re prev s next) (hnext : rest.head? = next) : (run word re prev (s ++ rest)).isSome := by
  induction h with
  | nil => rfl
  | one hc hmatch ih =>
      rw [List.cons_append, run, if_pos hc]
      simpa using ih hnext
  | @skip p re prev next s hmatch ih =>
      cases htext : s ++ rest with
      | nil =>
          rw [run, ← htext]
          exact ih hnext
      | cons c text =>
          have hrest := ih hnext
          rw [htext] at hrest
          rw [run]
          split_ifs
          · simp [hrest]
          · exact hrest
  | take hc hmatch ih =>
      have hrest := ih hnext
      rw [List.cons_append, run, if_pos hc]
      simp [hrest]
  | stop hmatch ih => exact runMany_isSome_of_after (ih hnext)
  | more hc hmatch ih =>
      have hrest := ih hnext
      rw [run] at hrest
      rw [List.cons_append, run, runMany, if_pos hc]
      simp [hrest]
  | @boundary re prev next s hb hmatch ih =>
      have hhead : (s ++ rest).head? = s.head?.or next := by rw [List.head?_append, hnext]
      rw [run, hhead, if_pos hb]
      exact ih hnext

/-! ## One match after another -/

/-- A part of a searched text: a symbol in no match, or a match. -/
inductive Piece (α : Type) where
  | kept (c : α)
  | found (m : List α)

/-- The text of a piece. -/
def Piece.text : Piece α → List α
  | .kept c => [c]
  | .found m => m

/-- The piece with a placeholder for a match. -/
def Piece.shown (placeholder : List α) : Piece α → List α
  | .kept c => [c]
  | .found _ => placeholder

/-- The texts of pieces, one after another. -/
def textOf (pieces : List (Piece α)) : List α := pieces.flatMap Piece.text

/-- The text with every match replaced. -/
def shownOf (placeholder : List α) (pieces : List (Piece α)) : List α :=
  pieces.flatMap (Piece.shown placeholder)

@[simp] theorem textOf_nil : textOf ([] : List (Piece α)) = [] := rfl

@[simp] theorem shownOf_nil (placeholder : List α) : shownOf placeholder [] = [] := rfl

@[simp] theorem textOf_append (first second : List (Piece α)) :
    textOf (first ++ second) = textOf first ++ textOf second := by simp [textOf]

@[simp] theorem shownOf_append (placeholder : List α) (first second : List (Piece α)) :
    shownOf placeholder (first ++ second) = shownOf placeholder first ++ shownOf placeholder second := by
  simp [shownOf]

@[simp] theorem textOf_cons (piece : Piece α) (rest : List (Piece α)) :
    textOf (piece :: rest) = piece.text ++ textOf rest := by simp [textOf]

@[simp] theorem shownOf_cons (placeholder : List α) (piece : Piece α) (rest : List (Piece α)) :
    shownOf placeholder (piece :: rest) = piece.shown placeholder ++ shownOf placeholder rest := by
  simp [shownOf]

@[simp] theorem textOf_kept (s : List α) : textOf (s.map .kept) = s := by
  induction s with
  | nil => rfl
  | cons c s ih => simp [Piece.text, ih]

@[simp] theorem shownOf_kept (placeholder s : List α) : shownOf placeholder (s.map .kept) = s := by
  induction s with
  | nil => rfl
  | cons c s ih => simp [Piece.shown, ih]

variable (word) in
/-- The search from a place on, `skip` symbols of which belong to the last match. -/
def scanFrom (re : ClassRegex α) : Option α → Nat → List α → List (Piece α)
  | _, _, [] => []
  | _, skip + 1, c :: rest => scanFrom re (some c) skip rest
  | prev, 0, c :: rest =>
    match run word re prev (c :: rest) with
    | some (n + 1) => .found ((c :: rest).take (n + 1)) :: scanFrom re (some c) n rest
    | _ => .kept c :: scanFrom re (some c) 0 rest

variable (word) in
/-- The leftmost matches of the text and what lies between them. -/
def scan (re : ClassRegex α) (text : List α) : List (Piece α) := scanFrom word re none 0 text

/-- The pieces of a search of the text after `prev`: from left to right, every match that is found, and every
symbol at which there is none. -/
inductive Scans (word : α → Bool) (re : ClassRegex α) : Option α → List α → List (Piece α) → Prop where
  | nil (prev : Option α) : Scans word re prev [] []
  | kept {prev : Option α} {c : α} {rest : List α} {pieces : List (Piece α)}
      (hnone : ∀ s rest', c :: rest = s ++ rest' → ¬ Matches word re prev s rest'.head?)
      (h : Scans word re (some c) rest pieces) : Scans word re prev (c :: rest) (.kept c :: pieces)
  | found {prev : Option α} {m rest : List α} {pieces : List (Piece α)} (hne : m ≠ [])
      (hm : Matches word re prev m rest.head?) (h : Scans word re (lastOr prev m) rest pieces) :
      Scans word re prev (m ++ rest) (.found m :: pieces)

/-- The empty text is no match. -/
def ClassRegex.Nonempty (word : α → Bool) (re : ClassRegex α) : Prop :=
  ∀ prev next, ¬ Matches word re prev [] next

theorem scanFrom_scans {re : ClassRegex α} (hre : re.Nonempty word) (prev : Option α) {skip : Nat}
    {text : List α} (hskip : skip ≤ text.length) :
    Scans word re (lastOr prev (text.take skip)) (text.drop skip) (scanFrom word re prev skip text) := by
  induction text generalizing prev skip with
  | nil =>
      obtain rfl : skip = 0 := Nat.le_zero.1 hskip
      exact .nil _
  | cons c rest ih =>
      cases skip with
      | succ skip =>
          rw [scanFrom, List.take_succ_cons, List.drop_succ_cons, lastOr_cons]
          exact ih (some c) (Nat.le_of_succ_le_succ hskip)
      | zero =>
          rw [List.take_zero, List.drop_zero, lastOr_nil, scanFrom]
          cases hrun : run word re prev (c :: rest) with
          | none =>
              refine .kept (fun s rest' htext hmatch => ?_) (ih (some c) (Nat.zero_le _))
              have hsome := run_complete hmatch rfl
              rw [← htext, hrun] at hsome
              cases hsome
          | some n =>
              obtain ⟨s, rest', htext, hn, hmatch⟩ := run_sound hrun
              cases s with
              | nil => exact absurd hmatch (hre _ _)
              | cons d s =>
                  obtain ⟨rfl, hrest⟩ := List.cons.inj htext
                  have hrest : rest = s ++ rest' := hrest
                  subst hrest
                  obtain rfl : s.length + 1 = n := hn
                  have hrest := ih (some c) (List.length_append ▸ Nat.le_add_right s.length rest'.length)
                  rw [List.take_left, List.drop_left] at hrest
                  have hfound := Scans.found (List.cons_ne_nil c s) hmatch (by simpa using hrest)
                  simpa using hfound

theorem scan_scans {re : ClassRegex α} (hre : re.Nonempty word) (text : List α) :
    Scans word re none text (scan word re text) := by
  have h := scanFrom_scans hre none (Nat.zero_le text.length)
  rw [List.take_zero, List.drop_zero, lastOr_nil] at h
  exact h

namespace Scans

variable {re : ClassRegex α} {prev : Option α} {text : List α} {pieces before after : List (Piece α)}

/-- The pieces make up the text. -/
theorem textOf_eq (h : Scans word re prev text pieces) : textOf pieces = text := by
  induction h with
  | nil => rfl
  | kept hnone h ih => simp [Piece.text, ih]
  | found hne hm h ih => simp [Piece.text, ih]

/-- The search from a later place on. -/
theorem drop (h : Scans word re prev text (before ++ after)) :
    Scans word re (lastOr prev (textOf before)) (textOf after) after := by
  induction before generalizing prev text with
  | nil =>
      have htext := h.textOf_eq
      rw [List.nil_append] at h htext
      rw [htext]
      simpa [textOf] using h
  | cons piece before ih =>
      cases h with
      | kept hnone h => simpa [Piece.text] using ih h
      | found hne hm h => simpa [Piece.text] using ih h

theorem found_head {m : List α} (h : Scans word re prev text (.found m :: after)) :
    m ≠ [] ∧ Matches word re prev m (textOf after).head? := by
  cases h with
  | found hne hm hrest => exact ⟨hne, hrest.textOf_eq ▸ hm⟩

theorem kept_head {c : α} (h : Scans word re prev text (.kept c :: after)) {s rest : List α}
    (hs : c :: textOf after = s ++ rest) : ¬ Matches word re prev s rest.head? := by
  cases h with
  | kept hnone hrest => exact hnone s rest (hrest.textOf_eq ▸ hs)

theorem ne_nil_of_mem {m : List α} (h : Scans word re prev text pieces) (hm : .found m ∈ pieces) : m ≠ [] := by
  obtain ⟨before, after, rfl⟩ := List.append_of_mem hm
  exact h.drop.found_head.1

/-- What is found is a match between the symbols next to it. -/
theorem found_matches {m : List α} (h : Scans word re prev text (before ++ .found m :: after)) :
    m ≠ [] ∧ Matches word re (lastOr prev (textOf before)) m (textOf after).head? :=
  h.drop.found_head

/-- Kept symbols are no match. -/
theorem not_matches_kept {c : α} {s : List α}
    (h : Scans word re prev text (before ++ ((c :: s).map .kept ++ after))) :
    ¬ Matches word re (lastOr prev (textOf before)) (c :: s) (textOf after).head? := by
  refine h.drop.kept_head ?_
  have htext : textOf (s.map .kept ++ after) = s ++ textOf after := by rw [textOf_append, textOf_kept]
  exact congrArg (c :: ·) htext

end Scans

/-! ## Matches and the symbols next to them -/

/-- A match depends on the symbols next to it only by whether they are part of a word. -/
theorem Matches.congr {re : ClassRegex α} {prev prev' next next' : Option α} {s : List α}
    (h : Matches word re prev s next) (hprev : wordAt word prev = wordAt word prev')
    (hnext : wordAt word next = wordAt word next') : Matches word re prev' s next' := by
  induction h generalizing prev' with
  | nil => exact .nil _ _
  | one hc h ih => exact .one hc (ih rfl hnext)
  | skip h ih => exact .skip (ih hprev hnext)
  | take hc h ih => exact .take hc (ih rfl hnext)
  | stop h ih => exact .stop (ih hprev hnext)
  | more hc h ih => exact .more hc (ih rfl hnext)
  | @boundary re prev next s hb h ih =>
      refine .boundary ?_ (ih hprev hnext)
      cases s with
      | nil => simpa [← hprev, ← hnext] using hb
      | cons c s => simpa [← hprev] using hb

/-- Without a boundary in it, an expression matches between any symbols. -/
theorem Matches.of_no_boundary {re : ClassRegex α} {prev prev' next next' : Option α} {s : List α}
    (h : Matches word re prev s next) (hre : ∀ atom ∈ re, atom ≠ .boundary) :
    Matches word re prev' s next' := by
  induction h generalizing prev' with
  | nil => exact .nil _ _
  | one hc h ih => exact .one hc (ih fun atom ha => hre atom (List.mem_cons_of_mem _ ha))
  | skip h ih => exact .skip (ih fun atom ha => hre atom (List.mem_cons_of_mem _ ha))
  | take hc h ih => exact .take hc (ih fun atom ha => hre atom (List.mem_cons_of_mem _ ha))
  | stop h ih => exact .stop (ih fun atom ha => hre atom (List.mem_cons_of_mem _ ha))
  | more hc h ih => exact .more hc (ih hre)
  | boundary hb h ih => exact absurd rfl (hre _ List.mem_cons_self)

/-- The class has only symbols with the property. -/
def Atom.Within (P : α → Prop) : Atom α → Prop
  | .one p | .opt p | .many p => ∀ c, p c = true → P c
  | .boundary => True

/-- The symbols of a match are in the classes of the expression. -/
theorem Matches.forall_mem {re : ClassRegex α} {prev next : Option α} {s : List α}
    (h : Matches word re prev s next) {P : α → Prop}
    (hre : ∀ atom ∈ re, atom.Within P) : ∀ c ∈ s, P c := by
  induction h with
  | nil => simp
  | one hc h ih =>
      obtain ⟨hatom, hrest⟩ := List.forall_mem_cons.1 hre
      exact List.forall_mem_cons.2 ⟨hatom _ hc, ih hrest⟩
  | skip h ih => exact ih (List.forall_mem_cons.1 hre).2
  | take hc h ih =>
      obtain ⟨hatom, hrest⟩ := List.forall_mem_cons.1 hre
      exact List.forall_mem_cons.2 ⟨hatom _ hc, ih hrest⟩
  | stop h ih => exact ih (List.forall_mem_cons.1 hre).2
  | more hc h ih =>
      obtain ⟨hatom, hrest⟩ := List.forall_mem_cons.1 hre
      exact List.forall_mem_cons.2 ⟨hatom _ hc, ih hre⟩
  | boundary hb h ih => exact ih (List.forall_mem_cons.1 hre).2

/-- A match of two expressions in a row. -/
theorem Matches.split {re₁ re₂ : ClassRegex α} {prev next : Option α} {s : List α}
    (h : Matches word (re₁ ++ re₂) prev s next) :
    ∃ s₁ s₂, s = s₁ ++ s₂ ∧ Matches word re₂ (lastOr prev s₁) s₂ next := by
  -- the match is cut where the first atom of the second part begins
  generalize hre : re₁ ++ re₂ = re at h
  induction h generalizing re₁ with
  | nil =>
      obtain ⟨rfl, rfl⟩ := List.append_eq_nil_iff.1 hre
      exact ⟨[], [], rfl, .nil _ _⟩
  | @one p re prev next c s hc h ih =>
      cases re₁ with
      | nil =>
          obtain rfl : re₂ = .one p :: re := hre
          exact ⟨[], c :: s, rfl, .one hc h⟩
      | cons atom re₁ =>
          obtain ⟨s₁, s₂, rfl, h₂⟩ := ih (List.cons.inj hre).2
          exact ⟨c :: s₁, s₂, rfl, by simpa using h₂⟩
  | @skip p re prev next s h ih =>
      cases re₁ with
      | nil =>
          obtain rfl : re₂ = .opt p :: re := hre
          exact ⟨[], s, rfl, .skip h⟩
      | cons atom re₁ => exact ih (List.cons.inj hre).2
  | @take p re prev next c s hc h ih =>
      cases re₁ with
      | nil =>
          obtain rfl : re₂ = .opt p :: re := hre
          exact ⟨[], c :: s, rfl, .take hc h⟩
      | cons atom re₁ =>
          obtain ⟨s₁, s₂, rfl, h₂⟩ := ih (List.cons.inj hre).2
          exact ⟨c :: s₁, s₂, rfl, by simpa using h₂⟩
  | @stop p re prev next s h ih =>
      cases re₁ with
      | nil =>
          obtain rfl : re₂ = .many p :: re := hre
          exact ⟨[], s, rfl, .stop h⟩
      | cons atom re₁ => exact ih (List.cons.inj hre).2
  | @more p re prev next c s hc h ih =>
      cases re₁ with
      | nil =>
          obtain rfl : re₂ = .many p :: re := hre
          exact ⟨[], c :: s, rfl, .more hc h⟩
      | cons atom re₁ =>
          obtain ⟨s₁, s₂, rfl, h₂⟩ := ih hre
          exact ⟨c :: s₁, s₂, rfl, by simpa using h₂⟩
  | @boundary re prev next s hb h ih =>
      cases re₁ with
      | nil =>
          obtain rfl : re₂ = .boundary :: re := hre
          exact ⟨[], s, rfl, .boundary hb h⟩
      | cons atom re₁ => exact ih (List.cons.inj hre).2

/-- A match begins and ends with symbols of words, and stands next to none. -/
structure Bounded (word : α → Bool) (prev : Option α) (s : List α) (next : Option α) : Prop where
  before : wordAt word prev = false
  first : wordAt word s.head? = true
  last : wordAt word s.getLast? = true
  after : wordAt word next = false

/-- An expression that begins and ends with a boundary and a class of word symbols. -/
theorem Matches.bounded {p q : α → Bool} {re : ClassRegex α} {prev next : Option α} {s : List α}
    (h : Matches word (.boundary :: .one p :: (re ++ [.one q, .boundary])) prev s next)
    (hp : ∀ c, p c = true → word c = true) (hq : ∀ c, q c = true → word c = true) :
    Bounded word prev s next := by
  have hsplit : Matches word ((.boundary :: .one p :: re) ++ [.one q, .boundary]) prev s next := h
  obtain ⟨s₁, s₂, hs, hend⟩ := hsplit.split
  cases hend with
  | one hd hend =>
  cases hend with
  | boundary hafter hend =>
  cases hend
  cases h with
  | boundary hbefore h =>
  cases h with
  | one hc h =>
  have hfirst := hp _ hc
  have hlast := hq _ hd
  refine ⟨?_, ?_, ?_, ?_⟩
  · simpa [wordAt, hfirst] using hbefore
  · simpa [wordAt] using hfirst
  · rw [hs]
    simpa [wordAt] using hlast
  · simpa [wordAt, hlast] using hafter

/-! ## What the placeholders leave of a text -/

/-- A placeholder between two brackets. -/
structure Bracketed (placeholder : List α) (left right : α) : Prop where
  first : placeholder.head? = some left
  last : placeholder.getLast? = some right

variable {placeholder s pre post : List α} {left right : α} {pieces before after : List (Piece α)}

/-- A part without a left bracket that the shown text begins with is kept. -/
theorem kept_of_shown_prefix (hph : Bracketed placeholder left right) (hleft : left ∉ s)
    (h : shownOf placeholder pieces = s ++ post) :
    ∃ after, pieces = s.map .kept ++ after ∧ shownOf placeholder after = post := by
  induction s generalizing pieces with
  | nil => exact ⟨pieces, rfl, h⟩
  | cons x s ih =>
      obtain ⟨hne, hrest⟩ := not_or.1 (mt List.mem_cons.2 hleft)
      cases pieces with
      | nil => simp [shownOf] at h
      | cons piece pieces =>
          cases piece with
          | kept c =>
              obtain ⟨rfl, htail⟩ := List.cons.inj h
              obtain ⟨after, rfl, hafter⟩ := ih hrest htail
              exact ⟨after, rfl, hafter⟩
          | found m =>
              have hhead := congrArg List.head? h
              rw [shownOf_cons, Piece.shown, List.head?_append, hph.first] at hhead
              exact absurd (Option.some.inj hhead) hne

/-- A part of the shown text without brackets, and with a symbol that is not in the placeholder, is kept. -/
theorem kept_of_shown (hph : Bracketed placeholder left right) (hleft : left ∉ s) (hright : right ∉ s)
    (hmark : ∃ x ∈ s, x ∉ placeholder) (h : shownOf placeholder pieces = pre ++ (s ++ post)) :
    ∃ before after, pieces = before ++ (s.map .kept ++ after) ∧ shownOf placeholder before = pre
      ∧ shownOf placeholder after = post := by
  induction pieces generalizing pre with
  | nil =>
      obtain ⟨x, hx, -⟩ := hmark
      have hnil : pre ++ (s ++ post) = [] := h.symm
      simp only [List.append_eq_nil_iff] at hnil
      rw [hnil.2.1] at hx
      cases hx
  | cons piece pieces ih =>
      cases pre with
      | nil =>
          obtain ⟨after, hpieces, hafter⟩ := kept_of_shown_prefix hph hleft h
          exact ⟨[], after, hpieces, rfl, hafter⟩
      | cons y pre =>
          cases piece with
          | kept c =>
              obtain ⟨rfl, hrest⟩ := List.cons.inj h
              obtain ⟨before, after, rfl, rfl, hafter⟩ := ih hrest
              exact ⟨.kept c :: before, after, rfl, rfl, hafter⟩
          | found m =>
              rw [shownOf_cons, Piece.shown] at h
              rcases List.append_eq_append_iff.1 h with ⟨pre', hpre, hrest⟩ | ⟨inside, hinside, hrest⟩
              · obtain ⟨before, after, rfl, hbefore, hafter⟩ := ih hrest
                refine ⟨.found m :: before, after, rfl, ?_, hafter⟩
                rw [shownOf_cons, Piece.shown, hbefore, hpre]
              · rcases List.eq_nil_or_concat inside with rfl | ⟨inside', b, rfl⟩
                · obtain ⟨after, rfl, hafter⟩ := kept_of_shown_prefix hph hleft (by simpa using hrest.symm)
                  refine ⟨[.found m], after, rfl, ?_, hafter⟩
                  simpa [shownOf, Piece.shown] using hinside
                · -- the part would begin inside the placeholder, whose right bracket it cannot reach
                  obtain rfl : b = right := by
                    have hlast := hph.last
                    rw [hinside, List.concat_eq_append, List.getLast?_append, List.getLast?_append] at hlast
                    simpa using hlast
                  obtain ⟨x, hx, hout⟩ := hmark
                  rcases List.append_eq_append_iff.1 hrest with ⟨t, ht, -⟩ | ⟨t, ht, -⟩
                  · refine absurd ?_ hout
                    rw [hinside, ht]
                    simp [hx]
                  · refine absurd ?_ hright
                    rw [ht, List.concat_eq_append]
                    simp

/-- The symbol before a place, unless a match ends there. -/
def lastKept (before : List (Piece α)) : Option α :=
  match before.getLast? with
  | some (.kept c) => some c
  | _ => none

/-- The symbol after a place, unless a match begins there. -/
def headKept : List (Piece α) → Option α
  | .kept c :: _ => some c
  | _ => none

/-- A placeholder is no part of a word. -/
theorem wordAt_lastOr_shownOf (hph : Bracketed placeholder left right) (hright : word right = false)
    (before : List (Piece α)) :
    wordAt word (lastOr none (shownOf placeholder before)) = wordAt word (lastKept before) := by
  rcases List.eq_nil_or_concat before with rfl | ⟨before, piece, rfl⟩
  · rfl
  · cases piece with
    | kept c => simp [List.concat_eq_append, Piece.shown, lastKept]
    | found m => simp [List.concat_eq_append, Piece.shown, lastKept, lastOr, hph.last, wordAt, hright]

theorem wordAt_head_shownOf (hph : Bracketed placeholder left right) (hleft : word left = false)
    (after : List (Piece α)) :
    wordAt word (shownOf placeholder after).head? = wordAt word (headKept after) := by
  cases after with
  | nil => rfl
  | cons piece after =>
      cases piece with
      | kept c => simp [Piece.shown, headKept]
      | found m => simp [Piece.shown, headKept, hph.first, wordAt, hleft]

/-! ## What a search leaves -/

/-- The expression matches somewhere in the text. -/
def Occurs (word : α → Bool) (re : ClassRegex α) (text : List α) : Prop :=
  ∃ pre s post, text = pre ++ (s ++ post) ∧ Matches word re (lastOr none pre) s post.head?

/-- A match that the search would find at a place. -/
theorem occurs_of_run {re : ClassRegex α} {rest : List α} {n : Nat}
    (h : run word re (lastOr none pre) rest = some n) : Occurs word re (pre ++ rest) := by
  obtain ⟨s, post, rfl, -, hmatch⟩ := run_sound h
  exact ⟨pre, s, post, rfl, hmatch⟩

/-- Every match of the expression can be told from placeholders. -/
def Visible (word : α → Bool) (re : ClassRegex α) (placeholder : List α) (left right : α) : Prop :=
  ∀ prev s next, Matches word re prev s next → left ∉ s ∧ right ∉ s ∧ ∃ x ∈ s, x ∉ placeholder

/-- Every match of the expression stands apart from words. -/
def ClassRegex.Bounded (word : α → Bool) (re : ClassRegex α) : Prop :=
  ∀ prev s next, Matches word re prev s next → Godwit.Bounded word prev s next

theorem lastOr_of_ne_nil {prev : Option α} (hs : s ≠ []) : lastOr prev s = s.getLast? := by
  rcases List.eq_nil_or_concat s with rfl | ⟨s', c, rfl⟩
  · exact absurd rfl hs
  · simp [lastOr]

theorem ne_nil_of_wordAt_head {s : List α} (h : wordAt word s.head? = true) : s ≠ [] := by
  rintro rfl
  cases h

/-- Nothing is found within the kept symbols, in the text that was searched. -/
theorem Scans.not_matches {re : ClassRegex α} (hre : re.Nonempty word) {text : List α}
    (h : Scans word re none text (before ++ (s.map .kept ++ after))) :
    ¬ Matches word re (lastOr none (textOf before)) s (textOf after).head? := by
  cases s with
  | nil => exact hre _ _
  | cons c s => exact h.not_matches_kept

/-- Pieces without a match are the symbols of the text. -/
theorem eq_kept_of_not_found (h : ∀ m, .found m ∉ pieces) : pieces = (textOf pieces).map .kept := by
  induction pieces with
  | nil => rfl
  | cons piece rest ih =>
      have hrest := ih fun m hm => h m (List.mem_cons_of_mem _ hm)
      cases piece with
      | kept c => simpa [Piece.text] using hrest
      | found m => exact absurd List.mem_cons_self (h m)

/-- Placeholders without a mark, for matches with one, leave fewer marks. -/
theorem countP_shownOf {mark : α → Bool} (pieces : List (Piece α)) (hph : ∀ c ∈ placeholder, mark c = false)
    (hfound : ∀ m, .found m ∈ pieces → ∃ c ∈ m, mark c = true) :
    (shownOf placeholder pieces).countP mark ≤ (textOf pieces).countP mark
      ∧ ((shownOf placeholder pieces).countP mark = (textOf pieces).countP mark → ∀ m, .found m ∉ pieces) := by
  induction pieces with
  | nil => simp
  | cons piece rest ih =>
      obtain ⟨hle, hnone⟩ := ih fun m hm => hfound m (List.mem_cons_of_mem _ hm)
      rw [shownOf_cons, textOf_cons, List.countP_append, List.countP_append]
      cases piece with
      | kept c =>
          refine ⟨Nat.add_le_add_left hle _, fun heq m hm => ?_⟩
          have hrest : .found m ∈ rest := by simpa using hm
          exact hnone (Nat.add_left_cancel heq) m hrest
      | found m =>
          have hzero : placeholder.countP mark = 0 := List.countP_eq_zero.2 fun c hc => by simp [hph c hc]
          have hpos : 0 < m.countP mark := List.countP_pos_iff.2 (hfound m List.mem_cons_self)
          rw [Piece.shown, Piece.text, hzero]
          exact ⟨by omega, fun heq => by omega⟩

/-- An expression occurs in a text exactly when the search finds something. -/
theorem Scans.occurs_iff {re : ClassRegex α} (hre : re.Nonempty word) {text : List α}
    (h : Scans word re none text pieces) : Occurs word re text ↔ ∃ m, .found m ∈ pieces := by
  constructor
  · rintro ⟨pre, s, post, rfl, hmatch⟩
    by_contra hnone
    have hpieces := eq_kept_of_not_found fun m hm => hnone ⟨m, hm⟩
    rw [h.textOf_eq, List.map_append, List.map_append] at hpieces
    rw [hpieces] at h
    have hmatches := h.not_matches hre
    rw [textOf_kept, textOf_kept] at hmatches
    exact hmatches hmatch
  · rintro ⟨m, hm⟩
    obtain ⟨before, after, rfl⟩ := List.append_of_mem hm
    refine ⟨textOf before, m, textOf after, ?_, h.found_matches.2⟩
    rw [← h.textOf_eq, textOf_append, textOf_cons, Piece.text]

section Search

variable {re : ClassRegex α} {text : List α} (hre : re.Bounded word)

include hre

/-- Next to kept symbols that begin and end a word, a placeholder is no neighbour. -/
theorem Scans.neighbours (h : Scans word re none text (before ++ (s.map .kept ++ after)))
    (hfirst : wordAt word s.head? = true) (hlast : wordAt word s.getLast? = true) :
    lastOr none (shownOf placeholder before) = lastOr none (textOf before)
      ∧ (shownOf placeholder after).head? = (textOf after).head? := by
  have hne := ne_nil_of_wordAt_head hfirst
  constructor
  · rcases List.eq_nil_or_concat before with rfl | ⟨before, piece, rfl⟩
    · rfl
    · cases piece with
      | kept c => simp [List.concat_eq_append, Piece.text, Piece.shown]
      | found m =>
          have hfound : Scans word re none text (before ++ .found m :: (s.map .kept ++ after)) := by
            simpa [List.concat_eq_append] using h
          have hafter := (hre _ _ _ hfound.found_matches.2).after
          rw [textOf_append, textOf_kept, List.head?_append_of_ne_nil _ hne, hfirst] at hafter
          cases hafter
  · cases after with
    | nil => rfl
    | cons piece after =>
        cases piece with
        | kept c => simp [Piece.text, Piece.shown]
        | found m =>
            rw [← List.append_assoc] at h
            have hbefore := (hre _ _ _ h.found_matches.2).before
            rw [textOf_append, textOf_kept, lastOr_append, lastOr_of_ne_nil hne, hlast] at hbefore
            cases hbefore

/-- Kept symbols are a match of another such expression in the searched text exactly when they are one in the
shown text. -/
theorem Scans.matches_shown_iff {re' : ClassRegex α} (hre' : re'.Bounded word)
    (h : Scans word re none text (before ++ (s.map .kept ++ after))) :
    Matches word re' (lastOr none (shownOf placeholder before)) s (shownOf placeholder after).head?
      ↔ Matches word re' (lastOr none (textOf before)) s (textOf after).head? := by
  constructor
  · intro hmatch
    have hbounded := hre' _ _ _ hmatch
    obtain ⟨hbefore, hafter⟩ := h.neighbours hre hbounded.first hbounded.last
    rwa [hbefore, hafter] at hmatch
  · intro hmatch
    have hbounded := hre' _ _ _ hmatch
    obtain ⟨hbefore, hafter⟩ := h.neighbours hre hbounded.first hbounded.last
    rwa [hbefore, hafter]

/-- After the search, another such expression occurs where it did before and nothing was found. -/
theorem Scans.occurs_shown_iff {re' : ClassRegex α} (hre' : re'.Bounded word)
    (hph : Bracketed placeholder left right) (hvisible : Visible word re' placeholder left right)
    (h : Scans word re none text pieces) :
    Occurs word re' (shownOf placeholder pieces) ↔
      ∃ before s after, pieces = before ++ (s.map .kept ++ after)
        ∧ Matches word re' (lastOr none (textOf before)) s (textOf after).head? := by
  constructor
  · rintro ⟨pre, s, post, hshown, hmatch⟩
    obtain ⟨hleft, hright, hmark⟩ := hvisible _ _ _ hmatch
    obtain ⟨before, after, rfl, rfl, rfl⟩ := kept_of_shown hph hleft hright hmark hshown
    exact ⟨before, s, after, rfl, (h.matches_shown_iff hre hre').1 hmatch⟩
  · rintro ⟨before, s, after, rfl, hmatch⟩
    refine ⟨shownOf placeholder before, s, shownOf placeholder after, ?_,
      (h.matches_shown_iff hre hre').2 hmatch⟩
    rw [shownOf_append, shownOf_append, shownOf_kept]

/-- The expression itself does not occur after the search. -/
theorem Scans.not_occurs (hph : Bracketed placeholder left right)
    (hvisible : Visible word re placeholder left right)
    (hnonempty : re.Nonempty word) (h : Scans word re none text pieces) :
    ¬ Occurs word re (shownOf placeholder pieces) := by
  intro hoccurs
  obtain ⟨before, s, after, rfl, hmatch⟩ := (h.occurs_shown_iff hre hre hph hvisible).1 hoccurs
  exact h.not_matches hnonempty hmatch

end Search

section NoBoundary

variable {re re' : ClassRegex α} {text : List α} (hre' : ∀ atom ∈ re', atom ≠ .boundary)
  (hph : Bracketed placeholder left right) (hvisible : Visible word re' placeholder left right)
  (h : Scans word re none text pieces)

include hre' hph hvisible h

/-- What occurs after a search, without a boundary in it, is kept from before. -/
theorem Scans.kept_of_occurs (hoccurs : Occurs word re' (shownOf placeholder pieces)) :
    ∃ before s after, pieces = before ++ (s.map .kept ++ after)
      ∧ Matches word re' (lastOr none (textOf before)) s (textOf after).head? := by
  obtain ⟨pre, s, post, hshown, hmatch⟩ := hoccurs
  obtain ⟨hleft, hright, hmark⟩ := hvisible _ _ _ hmatch
  obtain ⟨before, after, rfl, -, -⟩ := kept_of_shown hph hleft hright hmark hshown
  exact ⟨before, s, after, rfl, hmatch.of_no_boundary hre'⟩

theorem Scans.occurs_of_no_boundary (hoccurs : Occurs word re' (shownOf placeholder pieces)) :
    Occurs word re' text := by
  obtain ⟨before, s, after, rfl, hmatch⟩ := h.kept_of_occurs hre' hph hvisible hoccurs
  refine ⟨textOf before, s, textOf after, ?_, hmatch⟩
  rw [← h.textOf_eq, textOf_append, textOf_append, textOf_kept]

end NoBoundary

end Regex

end Godwit
