import Mathlib.Data.List.Infix
import Mathlib.Data.List.Flatten
import Mathlib.Algebra.Order.BigOperators.Group.List
import Mathlib.Algebra.Order.Ring.Nat

set_option autoImplicit false

/-! # Lines that arrive in chunks

A sequence is split into lines, and it is cut into chunks without regard to them. `linePieces` tells which
pieces of which line the chunks hold: put together the pieces of each line are the lines
(`map_flatten_linePieces`), and one after another they are the lines of the chunks (`flatten_linePieces`).
A reader that is given the lines of each chunk on its own does the work of one that is given the whole
sequence where it reads the pieces of a line as it reads the line (`readAll_pieces`), and always where it
keeps the unfinished line for the next chunk (`feedAll_eq`). -/

namespace Godwit

/-! ## Lines -/

section Lines

variable {α : Type} [DecidableEq α] {sep : α}

/-- Induction over the lines of a sequence. -/
theorem lines_induction {motive : List α → Prop} (sep : α) (last : ∀ line, sep ∉ line → motive line)
    (step : ∀ line rest, sep ∉ line → motive rest → motive (line ++ sep :: rest)) (l : List α) : motive l := by
  induction hlength : l.length using Nat.strong_induction_on generalizing l with
  | _ length ih =>
      by_cases hsep : sep ∈ l
      · obtain ⟨line, rest, rfl, hline⟩ := List.eq_append_cons_of_mem hsep
        refine step line rest hline (ih rest.length ?_ rest rfl)
        rw [← hlength, List.length_append, List.length_cons]
        omega
      · exact last l hsep

theorem not_mem_of_mem_splitOn {line l : List α} (hline : line ∈ l.splitOn sep) : sep ∉ line := by
  induction l using lines_induction sep with
  | last l hl =>
      rw [List.splitOn_eq_singleton hl, List.mem_singleton] at hline
      exact hline ▸ hl
  | step first rest hfirst ih =>
      rw [List.splitOn_append_cons_self, List.splitOn_eq_singleton hfirst, List.singleton_append] at hline
      rcases List.mem_cons.1 hline with rfl | hline
      · exact hfirst
      · exact ih hline

theorem infix_of_mem_splitOn {line l : List α} (hline : line ∈ l.splitOn sep) : line <:+: l := by
  induction l using lines_induction sep with
  | last l hl =>
      rw [List.splitOn_eq_singleton hl, List.mem_singleton] at hline
      exact hline ▸ List.infix_refl l
  | step first rest hfirst ih =>
      rw [List.splitOn_append_cons_self, List.splitOn_eq_singleton hfirst, List.singleton_append] at hline
      rcases List.mem_cons.1 hline with rfl | hline
      · exact List.infix_append' [] line (sep :: rest)
      · exact (ih hline).trans ⟨first ++ [sep], [], by simp⟩

end Lines

/-! ## Pieces of lines -/

section Pieces

variable {α : Type}

/-- The last line of a chunk goes on in the first line of what follows. -/
def joinPieces : List (List α) → List (List (List α)) → List (List (List α))
  | [], later => later
  | [last], later => later.modifyHead (last :: ·)
  | line :: next :: more, later => [line] :: joinPieces (next :: more) later

theorem joinPieces_ne_nil (lines : List (List α)) {later : List (List (List α))} (hlater : later ≠ []) :
    joinPieces lines later ≠ [] := by
  obtain ⟨first, rest, rfl⟩ := List.exists_cons_of_ne_nil hlater
  cases lines with
  | nil => exact hlater
  | cons line more =>
      cases more with
      | nil => exact List.cons_ne_nil _ _
      | cons next more => exact List.cons_ne_nil _ _

theorem flatten_joinPieces (lines : List (List α)) {later : List (List (List α))} (hlater : later ≠ []) :
    (joinPieces lines later).flatten = lines ++ later.flatten := by
  induction lines with
  | nil => rfl
  | cons line more ih =>
      cases more with
      | nil =>
          obtain ⟨first, rest, rfl⟩ := List.exists_cons_of_ne_nil hlater
          rfl
      | cons next more =>
          rw [joinPieces, List.flatten_cons, ih]
          rfl

/-- One more element at the start of the first line. -/
theorem map_flatten_joinPieces_cons (a : α) (line : List α) (more : List (List α))
    {later : List (List (List α))} (hlater : later ≠ []) :
    (joinPieces ((a :: line) :: more) later).map List.flatten
      = ((joinPieces (line :: more) later).map List.flatten).modifyHead (a :: ·) := by
  cases more with
  | cons next more => rfl
  | nil =>
      obtain ⟨first, rest, rfl⟩ := List.exists_cons_of_ne_nil hlater
      rfl

variable [DecidableEq α]

theorem map_flatten_joinPieces (sep : α) (chunk rest : List α) {later : List (List (List α))}
    (hlater : later.map List.flatten = rest.splitOn sep) :
    (joinPieces (chunk.splitOn sep) later).map List.flatten = (chunk ++ rest).splitOn sep := by
  have hne : later ≠ [] := by
    rintro rfl
    exact List.splitOn_ne_nil sep rest hlater.symm
  induction chunk with
  | nil =>
      obtain ⟨first, more, rfl⟩ := List.exists_cons_of_ne_nil hne
      exact hlater
  | cons a chunk ih =>
      obtain ⟨line, more, hlines⟩ := List.exists_cons_of_ne_nil (List.splitOn_ne_nil sep chunk)
      rw [List.cons_append, List.splitOn_cons_eq_if_modifyHead, List.splitOn_cons_eq_if_modifyHead, ← ih, hlines]
      split_ifs
      · rfl
      · exact map_flatten_joinPieces_cons a line more hne

/-- For each line of the chunks put together, its pieces. -/
def linePieces (sep : α) : List (List α) → List (List (List α))
  | [] => [[]]
  | chunk :: chunks => joinPieces (chunk.splitOn sep) (linePieces sep chunks)

theorem linePieces_ne_nil (sep : α) (chunks : List (List α)) : linePieces sep chunks ≠ [] := by
  induction chunks with
  | nil => exact List.cons_ne_nil _ _
  | cons chunk chunks ih => exact joinPieces_ne_nil _ ih

theorem flatten_linePieces (sep : α) (chunks : List (List α)) :
    (linePieces sep chunks).flatten = chunks.flatMap (List.splitOn sep) := by
  induction chunks with
  | nil => rfl
  | cons chunk chunks ih =>
      rw [linePieces, flatten_joinPieces _ (linePieces_ne_nil sep chunks), ih, List.flatMap_cons]

theorem map_flatten_linePieces (sep : α) (chunks : List (List α)) :
    (linePieces sep chunks).map List.flatten = chunks.flatten.splitOn sep := by
  induction chunks with
  | nil => rfl
  | cons chunk chunks ih => exact map_flatten_joinPieces sep chunk chunks.flatten ih

end Pieces

/-! ## Readers -/

section Readers

variable {α β σ : Type}

/-- What a reader with a state makes of some lines, one after another. -/
def readAll (read : σ → List α → List β × σ) : σ → List (List α) → List β × σ
  | s, [] => ([], s)
  | s, line :: lines =>
    let first := read s line
    let later := readAll read first.2 lines
    (first.1 ++ later.1, later.2)

variable {read : σ → List α → List β × σ}

theorem readAll_append (s : σ) (lines more : List (List α)) :
    readAll read s (lines ++ more)
      = ((readAll read s lines).1 ++ (readAll read (readAll read s lines).2 more).1,
        (readAll read (readAll read s lines).2 more).2) := by
  induction lines generalizing s with
  | nil => rfl
  | cons line lines ih => simp only [List.cons_append, readAll, ih, List.append_assoc]

/-- Lines that are silent in a state leave it as it is. -/
theorem readAll_silent {s : σ} {lines : List (List α)} (hsilent : ∀ line ∈ lines, read s line = ([], s)) :
    readAll read s lines = ([], s) := by
  induction lines with
  | nil => rfl
  | cons line lines ih =>
      have hlater := ih fun l hl => hsilent l (List.mem_cons_of_mem _ hl)
      simp only [readAll, hsilent line List.mem_cons_self, hlater, List.append_nil]

/-- The lines of a sequence, read whole and read in pieces. -/
theorem readAll_pieces (s : σ) {lines : List (List (List α))}
    (hlines : ∀ pieces ∈ lines, ∀ s, readAll read s pieces = read s pieces.flatten) :
    readAll read s lines.flatten = readAll read s (lines.map List.flatten) := by
  induction lines generalizing s with
  | nil => rfl
  | cons pieces lines ih =>
      have hlater := ih (s := (read s pieces.flatten).2) fun p hp => hlines p (List.mem_cons_of_mem _ hp)
      rw [List.flatten_cons, readAll_append, hlines pieces List.mem_cons_self, hlater]
      rfl

end Readers

/-! ## Readers without a state -/

section Stateless

variable {α β : Type} {events : List α → List β}

/-- The other way round, for a reader that makes of each line what it makes of it alone: where some lines
    are read in pieces of which nothing comes that comes from the whole, these lines are silent when both
    ways give the same. -/
theorem silent_of_same {lines : List (List (List α))} {torn : List (List α) → Prop}
    (hkept : ∀ pieces ∈ lines, ¬ torn pieces → pieces.flatMap events = events pieces.flatten)
    (hsame : lines.flatten.flatMap events = (lines.map List.flatten).flatMap events)
    (hfresh : ∀ pieces ∈ lines, torn pieces → ∀ piece ∈ pieces, ∀ e ∈ events piece,
      e ∉ (lines.map List.flatten).flatMap events) :
    ∀ pieces ∈ lines, torn pieces → events pieces.flatten = [] ∧ ∀ piece ∈ pieces, events piece = [] := by
  have hpieces : ∀ pieces ∈ lines, torn pieces → ∀ piece ∈ pieces, events piece = [] := by
    intro pieces hmem htorn piece hpiece
    refine List.eq_nil_iff_forall_not_mem.2 fun e he => hfresh pieces hmem htorn piece hpiece e he ?_
    rw [← hsame]
    exact List.mem_flatMap_of_mem (List.mem_flatten.2 ⟨pieces, hmem, hpiece⟩) he
  -- no line gives more in pieces than whole, and together they give as much
  have hfewer : ∀ pieces ∈ lines, (pieces.flatMap events).length ≤ (events pieces.flatten).length := by
    intro pieces hmem
    by_cases htorn : torn pieces
    · rw [List.flatMap_eq_nil_iff.2 (hpieces pieces hmem htorn)]
      exact Nat.zero_le _
    · rw [hkept pieces hmem htorn]
  have htotal : (lines.map fun pieces => (pieces.flatMap events).length).sum
      = (lines.map fun pieces => (events pieces.flatten).length).sum := by
    have hlengths := congrArg List.length hsame
    rw [List.length_flatMap, List.length_flatMap, List.map_map, List.map_flatten, List.sum_flatten,
      List.map_map] at hlengths
    simpa only [Function.comp_def, List.length_flatMap] using hlengths
  intro pieces hmem htorn
  refine ⟨?_, hpieces pieces hmem htorn⟩
  by_contra hevents
  have hless : (pieces.flatMap events).length < (events pieces.flatten).length := by
    rw [List.flatMap_eq_nil_iff.2 (hpieces pieces hmem htorn)]
    exact List.length_pos_iff.2 hevents
  exact absurd htotal (List.sum_lt_sum _ _ hfewer ⟨pieces, hmem, hless⟩).ne

end Stateless

/-! ## Readers that keep the unfinished line -/

section Buffered

variable {α β : Type} [DecidableEq α] (sep : α) (frames : List α → List β)

/-- What comes of the lines that end in a sequence, and the line that does not end there. -/
def drain (l : List α) : List β × List α :=
  ((l.splitOn sep).dropLast.flatMap frames, (l.splitOn sep).getLast (List.splitOn_ne_nil sep l))

theorem drain_last {l : List α} (hl : sep ∉ l) : drain sep frames l = ([], l) := by
  simp [drain, List.splitOn_eq_singleton hl]

theorem drain_line {line : List α} (hline : sep ∉ line) (rest : List α) :
    drain sep frames (line ++ sep :: rest)
      = (frames line ++ (drain sep frames rest).1, (drain sep frames rest).2) := by
  have hrest := List.splitOn_ne_nil sep rest
  simp [drain, List.splitOn_append_cons_self, List.splitOn_eq_singleton hline,
    List.dropLast_cons_of_ne_nil hrest, List.getLast_cons hrest]

theorem not_mem_drain (l : List α) : sep ∉ (drain sep frames l).2 :=
  not_mem_of_mem_splitOn (List.getLast_mem _)

/-- More of a sequence is read after the unfinished line of what came before. -/
theorem drain_append (l more : List α) :
    drain sep frames (l ++ more)
      = ((drain sep frames l).1 ++ (drain sep frames ((drain sep frames l).2 ++ more)).1,
        (drain sep frames ((drain sep frames l).2 ++ more)).2) := by
  induction l using lines_induction sep with
  | last l hl => rw [drain_last sep frames hl, List.nil_append]
  | step line rest hline ih =>
      rw [List.append_assoc, List.cons_append, drain_line sep frames hline, drain_line sep frames hline, ih,
        List.append_assoc]

/-- Chunks that are fed in order, after an unfinished line. -/
def feedAll : List α → List (List α) → List β
  | _, [] => []
  | buffer, chunk :: chunks =>
    (drain sep frames (buffer ++ chunk)).1 ++ feedAll (drain sep frames (buffer ++ chunk)).2 chunks

/-- The cuts between the chunks make no difference. -/
theorem feedAll_eq {buffer : List α} (hbuffer : sep ∉ buffer) (chunks : List (List α)) :
    feedAll sep frames buffer chunks = (drain sep frames (buffer ++ chunks.flatten)).1 := by
  induction chunks generalizing buffer with
  | nil => rw [feedAll, List.flatten_nil, List.append_nil, drain_last sep frames hbuffer]
  | cons chunk chunks ih =>
      rw [feedAll, ih (not_mem_drain sep frames _), List.flatten_cons, ← List.append_assoc,
        drain_append sep frames (buffer ++ chunk)]

/-- What comes of whole lines. -/
theorem drain_lines {lines : List (List α)} (hlines : ∀ line ∈ lines, sep ∉ line) :
    drain sep frames (lines.flatMap (· ++ [sep])) = (lines.flatMap frames, []) := by
  induction lines with
  | nil => rfl
  | cons line lines ih =>
      have hrest := ih fun l hl => hlines l (List.mem_cons_of_mem _ hl)
      rw [List.flatMap_cons, List.append_assoc, List.singleton_append,
        drain_line sep frames (hlines line List.mem_cons_self), hrest, List.flatMap_cons]

end Buffered

end Godwit
