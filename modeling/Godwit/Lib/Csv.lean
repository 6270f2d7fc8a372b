import Mathlib.Data.List.Basic

set_option autoImplicit false

/-! # Comma-separated values (RFC 4180)

The grammar of a file, over any symbols: records of fields, separated by line breaks, and a break after the last
record or none. A break is CRLF or LF alone. `Csv.parse` reads a file in one pass, and reads every file of the grammar
as the rows it stands for (`parse_of_file`), so a text stands for one list of rows at most. -/

/-- The symbols with a meaning of their own. -/
structure Csv.Symbols (α : Type) where
  comma : α
  quote : α
  cr : α
  lf : α
  distinct : [comma, quote, cr, lf].Nodup

namespace Csv

variable {α : Type} (s : Symbols α)

/-- Text data is any other symbol. -/
def Symbols.special : List α := [s.comma, s.quote, s.cr, s.lf]

/-! ## Grammar -/

/-- What stands between two quotes, and the value that it is for. -/
inductive Escaped : List α → List α → Prop
  | nil : Escaped [] []
  | symbol {c : α} {body value : List α} (hc : c ≠ s.quote) (h : Escaped body value) :
      Escaped (c :: body) (c :: value)
  | quote {body value : List α} (h : Escaped body value) : Escaped (s.quote :: s.quote :: body) (s.quote :: value)

/-- A field and its value, quoted or not. -/
inductive Field : List α → List α → Prop
  | plain {value : List α} (h : ∀ c ∈ value, c ∉ s.special) : Field value value
  | escaped {body value : List α} (h : Escaped s body value) : Field (s.quote :: body ++ [s.quote]) value

/-- A row and its values. -/
inductive Record : List α → List (List α) → Prop
  | last {field value : List α} (h : Field s field value) : Record field [value]
  | more {field value text : List α} {values : List (List α)} (h : Field s field value) (rest : Record text values) :
      Record (field ++ s.comma :: text) (value :: values)

/-- A line break. -/
def Break (text : List α) : Prop := text = [s.cr, s.lf] ∨ text = [s.lf]

/-- A file and its rows; the last one may end with a line break. -/
inductive File : List α → List (List (List α)) → Prop
  | last {text : List α} {row : List (List α)} (h : Record s text row) : File text [row]
  | ended {text lineEnd : List α} {row : List (List α)} (h : Record s text row) (hbreak : Break s lineEnd) :
      File (text ++ lineEnd) [row]
  | more {text lineEnd later : List α} {row : List (List α)} {rows : List (List (List α))} (h : Record s text row)
      (hbreak : Break s lineEnd) (rest : File later rows) (hlater : later ≠ []) :
      File (text ++ (lineEnd ++ later)) (row :: rows)

/-! ## Printing -/

/-- Fields with commas between them are a record. -/
theorem record_intercalate (fields : List (List α × List α)) (h : ∀ f ∈ fields, Field s f.1 f.2) (hne : fields ≠ []) :
    Record s ([s.comma].intercalate (fields.map Prod.fst)) (fields.map Prod.snd) := by
  induction fields with
  | nil => exact absurd rfl hne
  | cons f rest ih =>
      obtain ⟨hf, hrest⟩ := List.forall_mem_cons.1 h
      cases rest with
      | nil => simpa using Record.last hf
      | cons g rest =>
          have hrecord := ih hrest (List.cons_ne_nil _ _)
          simp only [List.map_cons, List.intercalate_cons_cons] at hrecord ⊢
          simpa using Record.more hf hrecord

/-- Records with line feeds between them are a file, where none is empty. -/
theorem file_intercalate (records : List (List α × List (List α)))
    (h : ∀ r ∈ records, Record s r.1 r.2 ∧ r.1 ≠ []) (hne : records ≠ []) :
    File s ([s.lf].intercalate (records.map Prod.fst)) (records.map Prod.snd)
      ∧ [s.lf].intercalate (records.map Prod.fst) ≠ [] := by
  induction records with
  | nil => exact absurd rfl hne
  | cons r rest ih =>
      obtain ⟨⟨hrecord, htext⟩, hrest⟩ := List.forall_mem_cons.1 h
      cases rest with
      | nil => simpa using ⟨File.last hrecord, htext⟩
      | cons next rest =>
          obtain ⟨hfile, hlater⟩ := ih hrest (List.cons_ne_nil _ _)
          simp only [List.map_cons, List.intercalate_cons_cons] at hfile hlater ⊢
          exact ⟨by simpa using File.more hrecord (.inr rfl) hfile hlater, by simp [htext]⟩

/-! ## Parsing -/

/-- Where the parser stands: before a field, in one without quotes, between the quotes of one, after a quote that may
    end it, or after a carriage return. -/
inductive Mode where
  | start
  | plain
  | quoted
  | closed
  | returned
  deriving DecidableEq, Repr

/-- Put text before the first field of the first row. -/
def pushText (text : List α) (rows : List (List (List α))) : List (List (List α)) :=
  rows.modifyHead fun row => row.modifyHead (text ++ ·)

/-- Put an empty field before the first row. -/
def newField (rows : List (List (List α))) : List (List (List α)) := rows.modifyHead ([] :: ·)

theorem pushText_nil (rows : List (List (List α))) : pushText [] rows = rows := by
  cases rows with
  | nil => rfl
  | cons row rows => cases row <;> rfl

theorem pushText_append (first second : List α) (rows : List (List (List α))) :
    pushText (first ++ second) rows = pushText first (pushText second rows) := by
  cases rows with
  | nil => rfl
  | cons row rows =>
      cases row with
      | nil => rfl
      | cons field row => simp [pushText]

theorem map_pushText_cons (c : α) (text : List α) (rows : Option (List (List (List α)))) :
    (rows.map (pushText text)).map (pushText [c]) = rows.map (pushText (c :: text)) := by
  rw [Option.map_map]
  exact congrArg (fun f => rows.map f) (funext fun r => (pushText_append [c] text r).symm)

section Parse

variable [DecidableEq α]

/-- The rows of a text from a place in it on; what the parser has read of the field there is not among them. -/
def scan : Mode → List α → Option (List (List (List α)))
  | mode, [] => if mode = .quoted ∨ mode = .returned then none else some [[[]]]
  | mode, c :: text =>
    if mode = .quoted then
      if c = s.quote then scan .closed text else (scan .quoted text).map (pushText [c])
    else if mode = .returned then
      if c = s.lf then if text = [] then some [[[]]] else (scan .start text).map ([[]] :: ·) else none
    else if c = s.comma then (scan .start text).map newField
    else if c = s.lf then if text = [] then some [[[]]] else (scan .start text).map ([[]] :: ·)
    else if c = s.cr then scan .returned text
    else if c = s.quote then
      if mode = .start then scan .quoted text
      else if mode = .closed then (scan .quoted text).map (pushText [c]) else none
    else if mode = .closed then none else (scan .plain text).map (pushText [c])

theorem scan_end (mode : Mode) :
    scan s mode [] = if mode = .quoted ∨ mode = .returned then none else some [[[]]] := rfl

theorem scan_cons (mode : Mode) (c : α) (text : List α) :
    scan s mode (c :: text) =
      if mode = .quoted then
        if c = s.quote then scan s .closed text else (scan s .quoted text).map (pushText [c])
      else if mode = .returned then
        if c = s.lf then if text = [] then some [[[]]] else (scan s .start text).map ([[]] :: ·) else none
      else if c = s.comma then (scan s .start text).map newField
      else if c = s.lf then if text = [] then some [[[]]] else (scan s .start text).map ([[]] :: ·)
      else if c = s.cr then scan s .returned text
      else if c = s.quote then
        if mode = .start then scan s .quoted text
        else if mode = .closed then (scan s .quoted text).map (pushText [c]) else none
      else if mode = .closed then none else (scan s .plain text).map (pushText [c]) := rfl

/-- The rows of a file. -/
def parse (text : List α) : Option (List (List (List α))) := scan s .start text

variable {s}

/-- The modes that a field can end in. -/
def Mode.Ends (mode : Mode) : Prop := mode ≠ .quoted ∧ mode ≠ .returned

omit [DecidableEq α] in
theorem Symbols.ne (s : Symbols α) :
    s.quote ≠ s.comma ∧ s.quote ≠ s.lf ∧ s.quote ≠ s.cr ∧ s.lf ≠ s.comma ∧ s.cr ≠ s.comma ∧ s.cr ≠ s.lf := by
  have hdistinct := s.distinct
  simp only [List.nodup_cons, List.mem_cons, List.not_mem_nil, or_false, not_or] at hdistinct
  obtain ⟨⟨hquote, hcr, hlf⟩, ⟨hquotecr, hquotelf⟩, hcrlf, -⟩ := hdistinct
  exact ⟨Ne.symm hquote, hquotelf, hquotecr, Ne.symm hlf, Ne.symm hcr, hcrlf⟩

/-- The rows after a line break. -/
def nextRow (s : Symbols α) (text : List α) : Option (List (List (List α))) :=
  if text = [] then some [[[]]] else (scan s .start text).map ([[]] :: ·)

section Symbols

variable {mode : Mode} (hmode : mode.Ends) (text : List α)

include hmode

theorem scan_nil : scan s mode [] = some [[[]]] := by simp [scan_end, hmode.1, hmode.2]

theorem scan_comma : scan s mode (s.comma :: text) = (scan s .start text).map newField := by
  simp [scan_cons, hmode.1, hmode.2]

theorem scan_lf : scan s mode (s.lf :: text) = nextRow s text := by
  obtain ⟨-, -, -, hcomma, -, -⟩ := s.ne
  simp [scan_cons, hmode.1, hmode.2, hcomma, nextRow]

theorem scan_cr_lf : scan s mode (s.cr :: s.lf :: text) = nextRow s text := by
  obtain ⟨-, -, -, -, hcomma, hlf⟩ := s.ne
  simp [scan_cons, hmode.1, hmode.2, hcomma, hlf, nextRow]

/-- Text data, where no quote came before it. -/
theorem scan_symbol (hclosed : mode ≠ .closed) {c : α} (hc : c ∉ s.special) :
    scan s mode (c :: text) = (scan s .plain text).map (pushText [c]) := by
  simp only [Symbols.special, List.mem_cons, List.not_mem_nil, or_false, not_or] at hc
  obtain ⟨hcomma, hquote, hcr, hlf⟩ := hc
  simp [scan_cons, hmode.1, hmode.2, hclosed, hcomma, hquote, hcr, hlf]

end Symbols

theorem scan_quote (text : List α) : scan s .start (s.quote :: text) = scan s .quoted text := by
  obtain ⟨hcomma, hlf, hcr, -⟩ := s.ne
  simp [scan_cons, hcomma, hlf, hcr]

/-- A second quote after one between quotes stands for a quote. -/
theorem scan_doubled (text : List α) :
    scan s .closed (s.quote :: text) = (scan s .quoted text).map (pushText [s.quote]) := by
  obtain ⟨hcomma, hlf, hcr, -⟩ := s.ne
  simp [scan_cons, hcomma, hlf, hcr]

/-! ## Parsing a file -/

/-- What may follow a field: nothing, a comma or a line break. -/
def Follows (s : Symbols α) (text : List α) : Prop :=
  text = [] ∨ (∃ rest, text = s.comma :: rest) ∨ ∃ lineEnd rest, Break s lineEnd ∧ text = lineEnd ++ rest

/-- After a field it does not matter how the field ended. -/
theorem scan_follows {text : List α} (h : Follows s text) {mode : Mode} (hmode : mode.Ends) :
    scan s mode text = scan s .start text := by
  have hstart : Mode.start.Ends := ⟨by decide, by decide⟩
  rcases h with rfl | ⟨rest, rfl⟩ | ⟨lineEnd, rest, rfl | rfl, rfl⟩
  · rw [scan_nil hmode, scan_nil hstart]
  · rw [scan_comma hmode, scan_comma hstart]
  · exact (scan_cr_lf hmode rest).trans (scan_cr_lf hstart rest).symm
  · exact (scan_lf hmode rest).trans (scan_lf hstart rest).symm

theorem scan_quoted {body value : List α} (h : Escaped s body value) (text : List α) :
    scan s .quoted (body ++ s.quote :: text) = (scan s .closed text).map (pushText value) := by
  induction h with
  | nil =>
      rw [List.nil_append, scan_cons, if_pos rfl, if_pos rfl, funext pushText_nil]
      exact Option.map_id'.symm
  | symbol hc h ih => rw [List.cons_append, scan_cons, if_pos rfl, if_neg hc, ih, map_pushText_cons]
  | quote h ih =>
      rw [List.cons_append, List.cons_append, scan_cons, if_pos rfl, if_pos rfl, scan_doubled, ih, map_pushText_cons]

theorem scan_plain {value : List α} (h : ∀ c ∈ value, c ∉ s.special) {mode : Mode} (hmode : mode.Ends)
    (hclosed : mode ≠ .closed) {text : List α} (hfollows : Follows s text) :
    scan s mode (value ++ text) = (scan s .start text).map (pushText value) := by
  induction value generalizing mode with
  | nil =>
      rw [List.nil_append, scan_follows hfollows hmode, funext pushText_nil]
      exact Option.map_id'.symm
  | cons c value ih =>
      obtain ⟨hc, hvalue⟩ := List.forall_mem_cons.1 h
      rw [List.cons_append, scan_symbol hmode _ hclosed hc, ih hvalue ⟨by decide, by decide⟩ (by decide),
        map_pushText_cons]

theorem scan_field {field value : List α} (h : Field s field value) {text : List α} (hfollows : Follows s text) :
    scan s .start (field ++ text) = (scan s .start text).map (pushText value) := by
  cases h with
  | plain h => exact scan_plain h ⟨by decide, by decide⟩ (by decide) hfollows
  | escaped h =>
      rename_i body
      have hsplit : s.quote :: body ++ [s.quote] ++ text = s.quote :: (body ++ s.quote :: text) := by simp
      rw [hsplit, scan_quote, scan_quoted h, scan_follows hfollows ⟨by decide, by decide⟩]

/-- A record, where the rows after it begin with an empty field of its own. -/
theorem scan_record {record : List α} {values : List (List α)} (h : Record s record values) {text : List α}
    (hfollows : text = [] ∨ ∃ lineEnd rest, Break s lineEnd ∧ text = lineEnd ++ rest) {rows : List (List (List α))}
    (htext : scan s .start text = some ([[]] :: rows)) :
    scan s .start (record ++ text) = some (values :: rows) := by
  have hends : Follows s text := hfollows.imp id .inr
  induction h with
  | last hfield =>
      rw [scan_field hfield hends, htext]
      simp [pushText]
  | more hfield hrest ih =>
      rename_i field value later values
      have hsplit : field ++ s.comma :: later ++ text = field ++ (s.comma :: (later ++ text)) := by simp
      rw [hsplit, scan_field hfield (.inr (.inl ⟨_, rfl⟩)), scan_comma ⟨by decide, by decide⟩, ih]
      simp [pushText, newField]

/-- After a line break there is the next row, or nothing. -/
theorem scan_break {lineEnd : List α} (h : Break s lineEnd) (text : List α) :
    scan s .start (lineEnd ++ text) = nextRow s text := by
  rcases h with rfl | rfl
  · exact scan_cr_lf ⟨by decide, by decide⟩ text
  · exact scan_lf ⟨by decide, by decide⟩ text

/-- A file is read as the rows that it stands for. -/
theorem parse_of_file {text : List α} {rows : List (List (List α))} (h : File s text rows) :
    parse s text = some rows := by
  induction h with
  | last hrecord =>
      rename_i text row
      rw [parse, ← List.append_nil text]
      exact scan_record hrecord (.inl rfl) (scan_nil ⟨by decide, by decide⟩)
  | ended hrecord hbreak =>
      rename_i text lineEnd row
      have hend : scan s .start lineEnd = some [[[]]] := by
        have hnext := scan_break hbreak []
        rwa [List.append_nil, nextRow, if_pos rfl] at hnext
      exact scan_record hrecord (.inr ⟨lineEnd, [], hbreak, (List.append_nil _).symm⟩) hend
  | more hrecord hbreak hrest hlater ih =>
      have hnext := scan_break hbreak (s := s)
      refine scan_record hrecord (.inr ⟨_, _, hbreak, rfl⟩) ?_
      rw [hnext, nextRow, if_neg hlater]
      rw [parse] at ih
      rw [ih]
      rfl

/-- A text is a file of one list of rows at most. -/
theorem File.unique {text : List α} {rows rows' : List (List (List α))} (h : File s text rows)
    (h' : File s text rows') : rows = rows' :=
  Option.some.inj ((parse_of_file h).symm.trans (parse_of_file h'))

end Parse

end Csv
