import Godwit.Lib.Csv

set_option autoImplicit false

/-! # The CSV of the logs page (`apps/ui/src/lib/exportCsv.ts`)

A string of the page is a list of UTF-16 code units, which need not be well formed. -/

namespace Godwit.Ui

/-- A JavaScript string: its UTF-16 code units. -/
abbrev JsString := List UInt16

/-- A literal of the source: its characters have one code unit each. -/
def jsString (literal : String) : JsString := literal.toList.map fun c => c.toNat.toUInt16

/-- The symbols of the format in UTF-16. -/
def csvSymbols : Csv.Symbols UInt16 where
  comma := 44
  quote := 34
  cr := 13
  lf := 10
  distinct := by decide

section Export

-- The numbers of the language, and `String` on them.
variable {N : Type} (numberText : N → JsString)

/-- What a field of a log can hold. -/
inductive JsValue (N : Type) where
  | undefined
  | null
  | str (s : JsString)
  | number (n : N)

/-- The fields of `RequestLog` that are exported. -/
structure RequestLog (N : Type) where
  id : JsValue N
  apiKeyId : JsValue N
  model : JsValue N
  provider : JsValue N
  capability : JsValue N
  tokensIn : JsValue N
  tokensOut : JsValue N
  durationMs : JsValue N
  costUsd : JsValue N
  status : JsValue N
  createdAt : JsValue N

/-- `value == null ? '' : String(value)`. -/
def cellText : JsValue N → JsString
  | .undefined | .null => []
  | .str s => s
  | .number n => numberText n

/-- Every quote is doubled. -/
def doubleQuotes (s : JsString) : JsString := s.flatMap fun c => if c = 34 then [34, 34] else [c]

/-- `escapeCell`: a cell with a quote, a comma or a line break is quoted. -/
def escapeCell (value : JsValue N) : JsString :=
  let s := cellText numberText value
  if s.any fun c => c = 34 || c = 44 || c = 10 || c = 13 then 34 :: doubleQuotes s ++ [34] else s

/-- The names of the columns. -/
def csvHeader : List JsString :=
  ["id", "api_key_id", "model", "provider", "capability", "tokens_in", "tokens_out", "duration_ms", "cost_usd",
    "status", "created_at"].map jsString

/-- The cells of a log, in the order of the header. -/
def RequestLog.cells (l : RequestLog N) : List (JsValue N) :=
  [l.id, l.apiKeyId, l.model, l.provider, l.capability, l.tokensIn, l.tokensOut, l.durationMs, l.costUsd, l.status,
    l.createdAt]

/-- `logsToCsv`: the header and a row for each log. -/
def logsToCsv (logs : List (RequestLog N)) : JsString :=
  let rows := logs.map fun l => [44].intercalate (l.cells.map (escapeCell numberText))
  [10].intercalate ([44].intercalate csvHeader :: rows)

end Export

end Godwit.Ui
