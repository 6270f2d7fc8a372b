import Mathlib.Data.List.DropRight
import Mathlib.Data.List.Infix

set_option autoImplicit false

/-! # Whitespace and lines of a text

The functions of the standard library's `str` that tell blanks and lines, over lists of characters:
`trim`, `strip_prefix` and `lines`. A reader that trims its lines does not see the carriage returns that
`lines` takes off, nor the empty piece after a final line feed, so for it the lines are the pieces between
line feeds (`filterMap_textLines`). -/

namespace Godwit

/-- `char::is_whitespace`: the Unicode property `White_Space`. -/
def isWhitespace (c : Char) : Bool :=
  let n := c.toNat
  (9 ≤ n && n ≤ 13) || n == 32 || n == 0x85 || n == 0xA0 || n == 0x1680
    || (0x2000 ≤ n && n ≤ 0x200A) || n == 0x2028 || n == 0x2029 || n == 0x202F || n == 0x205F
    || n == 0x3000

/-- `str::trim`. -/
def trimText (s : String) : String :=
  String.ofList ((s.toList.dropWhile isWhitespace).reverse.dropWhile isWhitespace).reverse

/-- `str::trim_end`. -/
def trimEnd (text : List Char) : List Char := text.rdropWhile isWhitespace

/-- `str::trim`, on the characters. -/
def trimChars (text : List Char) : List Char := trimEnd (text.dropWhile isWhitespace)

/-- A line without the carriage return before its line feed. -/
def dropCarriageReturn (line : List Char) : List Char :=
  if line.getLast? = some '\r' then line.dropLast else line

/-- `str::lines`: a line ends with a line feed, which the last one may lack. -/
def textLines (text : List Char) : List (List Char) :=
  let pieces := text.splitOn '\n'
  pieces.dropLast.map dropCarriageReturn ++ (pieces.getLast?.filter (· ≠ [])).toList

/-- A text without a line feed is one line. -/
theorem textLines_of_line {text : List Char} (hfeed : '\n' ∉ text) (hne : text ≠ []) : textLines text = [text] := by
  simp [textLines, List.splitOn_eq_singleton hfeed, hne]

/-- `str::contains`. -/
def containsText (text pattern : String) : Bool :=
  text.toList.tails.any fun rest => pattern.toList.isPrefixOf rest

/-! ## Trimming -/

theorem trimEnd_prefix (text : List Char) : trimEnd text <+: text := List.rdropWhile_prefix isWhitespace text

theorem trimEnd_getLast {text : List Char} (h : trimEnd text ≠ []) :
    isWhitespace ((trimEnd text).getLast h) = false :=
  Bool.eq_false_iff.2 (List.rdropWhile_last_not isWhitespace text h)

theorem trimEnd_concat_blank {c : Char} (hc : isWhitespace c = true) (text : List Char) :
    trimEnd (text ++ [c]) = trimEnd text :=
  List.rdropWhile_concat_pos isWhitespace text c hc

/-- What stands before a character that is no blank stays. -/
theorem trimEnd_append_cons {c : Char} (hc : isWhitespace c = false) (before after : List Char) :
    trimEnd (before ++ c :: after) = before ++ c :: trimEnd after := by
  induction after using List.reverseRecOn with
  | nil => exact List.rdropWhile_concat_neg isWhitespace before c (by simp [hc])
  | append_singleton after d ih =>
      rw [show before ++ c :: (after ++ [d]) = (before ++ c :: after) ++ [d] by simp]
      by_cases hd : isWhitespace d = true
      · rw [trimEnd_concat_blank hd, trimEnd_concat_blank hd, ih]
      · have hstays : trimEnd (after ++ [d]) = after ++ [d] :=
          List.rdropWhile_concat_neg isWhitespace after d hd
        rw [hstays]
        exact (List.rdropWhile_concat_neg isWhitespace (before ++ c :: after) d hd).trans (by simp)

/-- A text that starts with no blank is trimmed at its end only. -/
theorem trimChars_cons {c : Char} (hc : isWhitespace c = false) (text : List Char) :
    trimChars (c :: text) = c :: trimEnd text := by
  rw [trimChars, List.dropWhile_cons_of_neg (by simp [hc])]
  exact trimEnd_append_cons hc [] text

theorem trimEnd_append_blanks (text : List Char) {after : List Char}
    (hafter : ∀ c ∈ after, isWhitespace c = true) : trimEnd (text ++ after) = trimEnd text := by
  induction after using List.reverseRecOn with
  | nil => rw [List.append_nil]
  | append_singleton after c ih =>
      rw [← List.append_assoc, trimEnd_concat_blank (hafter c (by simp)),
        ih fun d hd => hafter d (List.mem_append_left _ hd)]

theorem trimChars_blanks {before after : List Char} (hbefore : ∀ c ∈ before, isWhitespace c = true)
    (hafter : ∀ c ∈ after, isWhitespace c = true) (text : List Char) :
    trimChars (before ++ text ++ after) = trimChars text := by
  have hstart : (before ++ text ++ after).dropWhile isWhitespace = (text ++ after).dropWhile isWhitespace := by
    rw [List.append_assoc, List.dropWhile_append_of_pos hbefore]
  unfold trimChars
  rw [hstart, List.dropWhile_append]
  split_ifs with hblank
  · rw [List.isEmpty_iff.1 hblank, List.dropWhile_eq_nil_iff.2 hafter]
  · exact trimEnd_append_blanks _ hafter

/-- The carriage return before a line feed is a blank. -/
theorem trimChars_dropCarriageReturn (line : List Char) : trimChars (dropCarriageReturn line) = trimChars line := by
  unfold dropCarriageReturn
  split_ifs with hlast
  · obtain ⟨start, rfl⟩ := List.getLast?_eq_some_iff.1 hlast
    rw [List.dropLast_concat]
    unfold trimChars
    rw [List.dropWhile_append]
    split_ifs with hblank
    · rw [List.isEmpty_iff.1 hblank]
      rfl
    · rw [trimEnd_concat_blank (by decide)]
  · rfl

theorem trimText_prefix (text : String) : (trimText text).toList <+: text.toList.dropWhile isWhitespace := by
  rw [trimText, String.toList_ofList]
  exact List.rdropWhile_prefix isWhitespace _

/-- A text that is trimmed to nothing is blank. -/
theorem isWhitespace_of_trimText {text : String} (hempty : (trimText text).isEmpty = true) :
    ∀ c ∈ text.toList, isWhitespace c = true := by
  have hback : ((text.toList.dropWhile isWhitespace).reverse.dropWhile isWhitespace) = [] := by
    simpa [trimText] using hempty
  have hdropped : ∀ c ∈ text.toList.dropWhile isWhitespace, isWhitespace c = true := by
    simpa using List.dropWhile_eq_nil_iff.1 hback
  intro c hc
  rw [← List.takeWhile_append_dropWhile (p := isWhitespace) (l := text.toList), List.mem_append] at hc
  exact hc.elim List.mem_takeWhile_imp (hdropped c)

/-! ## Lines -/

/-- For a reader that trims its lines and skips empty ones, the lines are the pieces between line feeds. -/
theorem filterMap_textLines {α : Type} {read : List Char → Option α}
    (htrim : ∀ line, read (dropCarriageReturn line) = read line) (hempty : read [] = none) (text : List Char) :
    (textLines text).filterMap read = (text.splitOn '\n').filterMap read := by
  have hpieces : text.splitOn '\n' ≠ [] := List.splitOn_ne_nil '\n' text
  have hlast : ∀ piece : Option (List Char), (piece.filter (· ≠ [])).toList.filterMap read
      = piece.toList.filterMap read := by
    rintro (_ | _ | ⟨c, piece⟩)
    · rfl
    · simp [hempty]
    · rfl
  rw [textLines, List.filterMap_append, List.filterMap_map, hlast,
    show read ∘ dropCarriageReturn = read from funext htrim, ← List.filterMap_append]
  congr 1
  rw [List.getLast?_eq_getLast_of_ne_nil hpieces, Option.toList_some]
  exact List.dropLast_append_getLast hpieces

/-! ## Splitting at the first separator -/

/-- A text that was joined with a separator is split where it was joined when the separator does not occur
    before, and does not begin in the first part either. -/
theorem dropInfix?_joined_iff {sep : List Char} (hsep : sep ≠ []) (first second : List Char) :
    (first ++ sep ++ second).dropInfix? sep = some (first, second) ↔ ¬ sep <:+: first ++ sep.dropLast := by
  have hlast : sep.dropLast ++ [sep.getLast hsep] = sep := List.dropLast_append_getLast hsep
  have hlength := congrArg List.length hlast
  rw [List.length_append, List.length_singleton] at hlength
  rw [List.dropInfix?_eq_some_iff]
  constructor
  · rintro ⟨-, hleast⟩ ⟨before, after, hinfix⟩
    -- the separator would occur earlier
    have hsplit : first ++ sep ++ second = before ++ sep ++ (after ++ [sep.getLast hsep] ++ second) := by
      rw [← List.append_assoc, ← List.append_assoc, hinfix, List.append_assoc first sep.dropLast, hlast]
    have hearlier := hleast before sep _ hsplit (by simp)
    have hlengths := congrArg List.length hinfix
    simp only [List.length_append] at hlengths
    omega
  · intro hclean
    refine ⟨⟨sep, rfl, by simp⟩, fun before sep' after hsplit hsame => ?_⟩
    obtain rfl : sep' = sep := by simpa using hsame
    by_contra hshort
    -- an earlier occurrence ends before the last character of the separator
    have hprefix : before ++ sep' <+: first ++ sep'.dropLast := by
      have hwhole : before ++ sep' <+: first ++ sep' ++ second := ⟨after, hsplit.symm⟩
      refine List.prefix_of_prefix_length_le hwhole ⟨[sep'.getLast hsep] ++ second, ?_⟩ ?_
      · rw [← List.append_assoc, List.append_assoc first, hlast]
      · simp only [List.length_append]
        omega
    exact hclean ((List.suffix_append before sep').isInfix.trans hprefix.isInfix)

end Godwit
