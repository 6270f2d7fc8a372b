import Godwit.Ui.ExportCsv

set_option autoImplicit false

/-! # The exported file stands for the logs

A cell is a field of the grammar for its text: it is quoted when it has a symbol with a meaning, and the quotes in it
are doubled. -/

namespace Godwit.Ui

@[simp] theorem csvSymbols_comma : csvSymbols.comma = 44 := rfl

@[simp] theorem csvSymbols_lf : csvSymbols.lf = 10 := rfl

theorem escaped_doubleQuotes (s : JsString) : Csv.Escaped csvSymbols (doubleQuotes s) s := by
  induction s with
  | nil => exact .nil
  | cons c s ih =>
      rw [doubleQuotes, List.flatMap_cons]
      by_cases hc : c = 34
      · subst hc
        exact .quote ih
      · rw [if_neg hc]
        exact .symbol hc ih

section Export

variable {N : Type} (numberText : N → JsString)

/-- A cell is a field for its text. -/
theorem field_escapeCell (value : JsValue N) :
    Csv.Field csvSymbols (escapeCell numberText value) (cellText numberText value) := by
  unfold escapeCell
  dsimp only
  split
  · exact .escaped (escaped_doubleQuotes _)
  · rename_i hplain
    refine .plain fun c hc hspecial => hplain ?_
    simp only [Csv.Symbols.special, csvSymbols, List.mem_cons, List.not_mem_nil, or_false] at hspecial
    rw [List.any_eq_true]
    exact ⟨c, hc, by rcases hspecial with rfl | rfl | rfl | rfl <;> decide⟩

example : escapeCell (fun _ : Nat => []) (.str (jsString "a,\"b\"")) = jsString "\"a,\"\"b\"\"\"" := by decide

/-- A name of the header is a field as it stands. -/
theorem field_header {name : JsString} (h : name ∈ csvHeader) : Csv.Field csvSymbols name name := by
  have hplain : (csvHeader.all fun name => name.all fun c => !csvSymbols.special.contains c) = true := by decide
  refine .plain fun c hc hspecial => ?_
  have hchar := List.all_eq_true.1 (List.all_eq_true.1 hplain name h) c hc
  rw [List.contains_iff_mem.2 hspecial] at hchar
  cases hchar

/-- Fields with commas between them are not empty, if there are two. -/
theorem intercalate_ne_nil (first second : JsString) (rest : List JsString) :
    [44].intercalate (first :: second :: rest) ≠ [] := by
  simp [List.intercalate_cons_cons]

theorem record_header :
    Csv.Record csvSymbols ([44].intercalate csvHeader) csvHeader ∧ [44].intercalate csvHeader ≠ [] := by
  have hrecord := Csv.record_intercalate csvSymbols (csvHeader.map fun name => (name, name))
    (by simpa using fun name h => field_header h) (by decide)
  exact ⟨by simpa [Function.comp_def] using hrecord, intercalate_ne_nil _ _ _⟩

theorem record_log (l : RequestLog N) :
    Csv.Record csvSymbols ([44].intercalate (l.cells.map (escapeCell numberText))) (l.cells.map (cellText numberText))
      ∧ [44].intercalate (l.cells.map (escapeCell numberText)) ≠ [] := by
  have hrecord := Csv.record_intercalate csvSymbols
    (l.cells.map fun value => (escapeCell numberText value, cellText numberText value))
    (by simpa using fun value _ => field_escapeCell numberText value) (by simp [RequestLog.cells])
  exact ⟨by simpa [Function.comp_def] using hrecord, intercalate_ne_nil _ _ _⟩

/-- The export is a file of the header and a row for every log. -/
theorem file_logsToCsv (logs : List (RequestLog N)) :
    Csv.File csvSymbols (logsToCsv numberText logs)
      (csvHeader :: logs.map fun l => l.cells.map (cellText numberText)) := by
  have hfile := Csv.file_intercalate csvSymbols
    (([44].intercalate csvHeader, csvHeader) :: logs.map fun l =>
      ([44].intercalate (l.cells.map (escapeCell numberText)), l.cells.map (cellText numberText)))
    (List.forall_mem_cons.2 ⟨record_header, by simpa using fun l _ => record_log numberText l⟩) (List.cons_ne_nil _ _)
  simpa [logsToCsv, Function.comp_def] using hfile.1

/-- Whatever the logs hold, a reader of the export gets the header and, in order, the texts of the cells of each log,
    and the grammar has no other reading of it. -/
theorem logsToCsv_file_iff (logs : List (RequestLog N)) :
    Csv.parse csvSymbols (logsToCsv numberText logs)
        = some (csvHeader :: logs.map fun l => l.cells.map (cellText numberText))
      ∧ ∀ rows, Csv.File csvSymbols (logsToCsv numberText logs) rows
        ↔ rows = csvHeader :: logs.map fun l => l.cells.map (cellText numberText) := by
  have hfile := file_logsToCsv numberText logs
  refine ⟨Csv.parse_of_file hfile, fun rows => ⟨fun hrows => hrows.unique hfile, ?_⟩⟩
  rintro rfl
  exact hfile

end Export

end Godwit.Ui
