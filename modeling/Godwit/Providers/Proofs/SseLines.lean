import Godwit.Providers.ChatStream

set_option autoImplicit false

/-! # Parsing line by line

`parse_sse_events` trims each line, so that it does not see how a line ends: the events of a text are those
of the pieces between its line feeds (`parseSseEvents_eq`), and the events of bytes are those of their lines
(`parseSseEvents_fromUtf8Lossy`), where white space around a line does not matter. -/

namespace Godwit

/-! ## Lines of characters -/

theorem sseLine_dropCarriageReturn (line : List Char) : sseLine (dropCarriageReturn line) = sseLine line := by
  unfold sseLine
  rw [trimChars_dropCarriageReturn]

@[simp] theorem sseLine_nil : sseLine [] = none := rfl

theorem parseSseEvents_eq (chunk : String) :
    parseSseEvents chunk = (chunk.toList.splitOn '\n').filterMap sseLine :=
  filterMap_textLines sseLine_dropCarriageReturn sseLine_nil chunk.toList

/-- Text around a line feed is parsed on its own. -/
theorem parseSseEvents_append (before after : List Char) :
    parseSseEvents (String.ofList (before ++ '\n' :: after))
      = parseSseEvents (String.ofList before) ++ parseSseEvents (String.ofList after) := by
  simp only [parseSseEvents_eq, String.toList_ofList, List.splitOn_append_cons_self, List.filterMap_append]

/-- White space around a line. -/
theorem sseLine_blanks {before after : List Char} (hbefore : ∀ c ∈ before, isWhitespace c = true)
    (hafter : ∀ c ∈ after, isWhitespace c = true) (line : List Char) :
    sseLine (before ++ line ++ after) = sseLine line := by
  unfold sseLine
  rw [trimChars_blanks hbefore hafter]

theorem sseLine_of_blank {line : List Char} (hline : ∀ c ∈ line, isWhitespace c = true) : sseLine line = none := by
  have hnil := sseLine_blanks hline (fun _ h => absurd h List.not_mem_nil) []
  rwa [List.append_nil, List.append_nil] at hnil

/-- A line without the characters of the prefix holds no event. -/
theorem sseLine_of_length {line : List Char} (hline : line.length < dataPrefix.length) : sseLine line = none := by
  have hend : trimChars line <+: line.dropWhile isWhitespace := trimEnd_prefix _
  have htrim : (trimChars line).length < dataPrefix.length :=
    (hend.length_le.trans (List.dropWhile_suffix _).length_le).trans_lt hline
  unfold sseLine
  dsimp only
  split_ifs with hblank
  · rfl
  · have hnone : (trimChars line).dropPrefix? dataPrefix = none := by
      by_contra hsome
      obtain ⟨data, hdata⟩ := Option.ne_none_iff_exists'.1 hsome
      obtain ⟨start, hline, hstart⟩ := List.dropPrefix?_eq_some_iff.1 hdata
      have hlength := congrArg List.length hline
      rw [eq_of_beq hstart, List.length_append] at hlength
      omega
    rw [hnone]

/-! ## Lines of bytes -/

/-- The event of a line of bytes, if it holds one. -/
def lineEvent (line : Bytes) : Option SseEvent := sseLine (decodeLossy line)

theorem parseSseEvents_fromUtf8Lossy (bytes : Bytes) :
    parseSseEvents (fromUtf8Lossy bytes) = (bytes.splitOn 0x0A).filterMap lineEvent := by
  rw [parseSseEvents_eq, fromUtf8Lossy, String.toList_ofList, splitOn_decodeLossy, List.filterMap_map]
  rfl

theorem lineEvent_of_length {line : Bytes} (hline : line.length < dataPrefix.length) : lineEvent line = none :=
  sseLine_of_length ((length_decodeLossy_le line).trans_lt hline)

/-- Bytes that are white space only. -/
def blankBytes (piece : Bytes) : Bool := (decodeLossy piece).all isWhitespace

theorem blankBytes_iff {piece : Bytes} :
    blankBytes piece = true ↔ ∀ c ∈ decodeLossy piece, isWhitespace c = true := List.all_eq_true

theorem lineEvent_of_blank {piece : Bytes} (hblank : blankBytes piece = true) : lineEvent piece = none :=
  sseLine_of_blank (blankBytes_iff.1 hblank)

theorem replacementChar_not_mem_of_blank {piece : Bytes} (hblank : blankBytes piece = true) :
    replacementChar ∉ decodeLossy piece :=
  fun hmem => absurd (blankBytes_iff.1 hblank _ hmem) (by decide)

theorem lineEvent_blanks {before after : Bytes} (hbefore : blankBytes before = true)
    (hafter : blankBytes after = true) (line : Bytes) : lineEvent (before ++ line ++ after) = lineEvent line := by
  unfold lineEvent
  rw [decodeLossy_append_of_right _ (replacementChar_not_mem_of_blank hafter),
    decodeLossy_append_of_left (replacementChar_not_mem_of_blank hbefore)]
  exact sseLine_blanks (blankBytes_iff.1 hbefore) (blankBytes_iff.1 hafter) _

theorem blankBytes_flatten {pieces : List Bytes} (hblank : ∀ piece ∈ pieces, blankBytes piece = true) :
    blankBytes pieces.flatten = true := by
  induction pieces with
  | nil => rfl
  | cons piece pieces ih =>
      have hpiece := hblank piece List.mem_cons_self
      have hrest := ih fun p hp => hblank p (List.mem_cons_of_mem _ hp)
      rw [List.flatten_cons, blankBytes, decodeLossy_append_of_left (replacementChar_not_mem_of_blank hpiece),
        List.all_append, Bool.and_eq_true]
      exact ⟨hpiece, hrest⟩

end Godwit
