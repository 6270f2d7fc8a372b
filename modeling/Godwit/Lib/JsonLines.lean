import Godwit.Lib.JsonText
import Godwit.Lib.Text

set_option autoImplicit false

/-! # JSON text on one line

What a protocol with a document to a line needs of a codec (`OneLineText`): the text of a document has no line
feed and blanks around it make no difference. `jsonLine` is compact JSON text whose parser skips blanks. -/

namespace Godwit

/-- The blanks of JSON. -/
def jsonBlank (c : Char) : Bool := c == ' ' || c == '\t' || c == '\n' || c == '\r'

/-- A character of a number. -/
def numberChar (c : Char) : Bool := c.isDigit || c == '-' || c == '+' || c == '.' || c == 'e' || c == 'E'

mutual

/-- The literals of a document are numbers. -/
def Json.numeric : Json → Bool
  | .float literal => literal.toList.all numberChar
  | .arr items => Json.numericItems items
  | .obj fields => Json.numericFields fields
  | _ => true

/-- Every item is numeric. -/
def Json.numericItems : List Json → Bool
  | [] => true
  | v :: rest => v.numeric && Json.numericItems rest

/-- Every value is numeric. -/
def Json.numericFields : List (String × Json) → Bool
  | [] => true
  | (_, v) :: rest => v.numeric && Json.numericFields rest

end

/-- What a reader of lines relies on: a document has no line break, and blanks around it do not matter. -/
structure OneLineText (json : JsonCodec) : Prop where
  oneLine : ∀ v : Json, v.numeric = true → '\n' ∉ (json.toString v).toList
  brace : ∀ fields, ∃ text, (json.toString (.obj fields)).toList = '{' :: text
  blanks : ∀ before text after : List Char, (∀ c ∈ before, jsonBlank c = true) → (∀ c ∈ after, jsonBlank c = true) →
    json.fromStr (String.ofList (before ++ text ++ after)) = json.fromStr (String.ofList text)
  nothing : json.fromStr "" = none

theorem OneLineText.fromStr_blank {json : JsonCodec} (h : OneLineText json) {text : List Char}
    (htext : ∀ c ∈ text, jsonBlank c = true) : json.fromStr (String.ofList text) = none := by
  have hblanks := h.blanks text [] [] htext fun _ hc => absurd hc List.not_mem_nil
  rw [List.append_nil, List.append_nil] at hblanks
  rw [hblanks]
  exact h.nothing

/-! ## The text of a document has no line feed -/

theorem digitChar_ne_lineFeed : ∀ n < 16, Nat.digitChar n ≠ '\n' := by decide

theorem lineFeed_not_mem_escapeChar (c : Char) : '\n' ∉ escapeChar c := by
  rcases escapeChar_cases c with ⟨e, hback, hwritten⟩ | ⟨hcontrol, hwritten⟩ | ⟨-, -, hplain, hwritten⟩ <;>
    rw [hwritten] <;> simp only [List.mem_cons, List.not_mem_nil, or_false, not_or]
  · refine ⟨by decide, ?_⟩
    rintro rfl
    cases hback
  · -- a control character becomes digits
    have hhigh := digitChar_ne_lineFeed (c.toNat / 16) (by omega)
    have hlow := digitChar_ne_lineFeed (c.toNat % 16) (by omega)
    exact ⟨by decide, by decide, by decide, by decide, hhigh.symm, hlow.symm⟩
  · rintro rfl
    exact absurd hplain (by decide)

theorem lineFeed_not_mem_printString (s : List Char) : '\n' ∉ printString s := by
  intro h
  simp only [printString, List.cons_append, List.mem_cons, List.mem_append, List.mem_flatMap,
    List.not_mem_nil, or_false] at h
  rcases h with h | ⟨c, _, h⟩ | h
  · exact absurd h (by decide)
  · exact lineFeed_not_mem_escapeChar c h
  · exact absurd h (by decide)

theorem lineFeed_not_mem_toDigits (n : Nat) : '\n' ∉ Nat.toDigits 10 n := by
  intro h
  have hdigit : ('\n').isDigit = true := Nat.isDigit_of_mem_toDigits (by decide) (by decide) h
  exact absurd hdigit (by decide)

theorem lineFeed_not_mem_printInt (n : Int) : '\n' ∉ printInt n := by
  cases n with
  | ofNat n => exact lineFeed_not_mem_toDigits n
  | negSucc n =>
      intro h
      rcases List.mem_cons.1 h with h | h
      · exact absurd h (by decide)
      · exact lineFeed_not_mem_toDigits (n + 1) h

mutual

theorem Json.print_oneLine (v : Json) (h : v.numeric = true) : '\n' ∉ v.print := by
  cases v with
  | null => decide
  | bool b => cases b <;> decide
  | int n => exact lineFeed_not_mem_printInt n
  | float literal =>
      intro hmem
      exact absurd (List.all_eq_true.1 h '\n' hmem) (by decide)
  | str s => exact lineFeed_not_mem_printString s.toList
  | arr items =>
      cases items with
      | nil => decide
      | cons v rest =>
          obtain ⟨hv, hrest⟩ := Bool.and_eq_true_iff.1 h
          simp [Json.print, Json.print_oneLine v hv, Json.printItems_oneLine rest hrest]
  | obj fields =>
      cases fields with
      | nil => decide
      | cons f rest =>
          obtain ⟨k, v⟩ := f
          obtain ⟨hv, hrest⟩ := Bool.and_eq_true_iff.1 h
          simp [Json.print, lineFeed_not_mem_printString, Json.print_oneLine v hv,
            Json.printFields_oneLine rest hrest]

theorem Json.printItems_oneLine (items : List Json) (h : Json.numericItems items = true) :
    '\n' ∉ Json.printItems items := by
  cases items with
  | nil => decide
  | cons v rest =>
      obtain ⟨hv, hrest⟩ := Bool.and_eq_true_iff.1 h
      simp [Json.printItems, Json.print_oneLine v hv, Json.printItems_oneLine rest hrest]

theorem Json.printFields_oneLine (fields : List (String × Json)) (h : Json.numericFields fields = true) :
    '\n' ∉ Json.printFields fields := by
  cases fields with
  | nil => decide
  | cons f rest =>
      obtain ⟨k, v⟩ := f
      obtain ⟨hv, hrest⟩ := Bool.and_eq_true_iff.1 h
      simp [Json.printFields, lineFeed_not_mem_printString, Json.print_oneLine v hv,
        Json.printFields_oneLine rest hrest]

end

/-! ## A codec whose parser skips blanks -/

theorem isWhitespace_of_jsonBlank {c : Char} (hc : jsonBlank c = true) : isWhitespace c = true := by
  simp only [jsonBlank, Bool.or_eq_true, beq_iff_eq] at hc
  rcases hc with ((rfl | rfl) | rfl) | rfl <;> decide

theorem isWhitespace_of_isDigit {c : Char} (hc : c.isDigit = true) : isWhitespace c = false := by
  have hrange : 48 ≤ c.toNat ∧ c.toNat ≤ 57 := by
    simp only [Char.isDigit, ge_iff_le, Bool.and_eq_true, decide_eq_true_eq] at hc
    exact hc
  simp [isWhitespace]
  omega

/-- A text that neither starts nor ends with a blank. -/
def Trimmed (text : List Char) : Prop :=
  (∀ c ∈ text.head?, isWhitespace c = false) ∧ ∀ c ∈ text.getLast?, isWhitespace c = false

theorem trimChars_of_trimmed {text : List Char} (h : Trimmed text) : trimChars text = text := by
  obtain ⟨hhead, hlast⟩ := h
  cases text with
  | nil => rfl
  | cons c text =>
      have hstart : (c :: text).dropWhile isWhitespace = c :: text :=
        List.dropWhile_cons_of_neg (by simp [hhead c rfl])
      rw [trimChars, hstart]
      refine List.rdropWhile_eq_self_iff.2 fun hne => ?_
      rw [hlast _ (List.getLast?_eq_getLast_of_ne_nil hne)]
      exact Bool.false_ne_true

/-- A text in brackets, braces or quotes, or a name. -/
theorem trimmed_enclosed {first last : Char} (hfirst : isWhitespace first = false)
    (hlast : isWhitespace last = false) (text : List Char) : Trimmed (first :: text ++ [last]) := by
  refine ⟨?_, ?_⟩
  · rintro c ⟨⟩
    exact hfirst
  · rw [List.getLast?_concat]
    rintro c ⟨⟩
    exact hlast

theorem trimmed_digits {text : List Char} (htext : ∀ c ∈ text, c.isDigit = true) : Trimmed text :=
  ⟨fun c hc => isWhitespace_of_isDigit (htext c (List.mem_of_mem_head? hc)),
    fun c hc => isWhitespace_of_isDigit (htext c (List.mem_of_mem_getLast? hc))⟩

theorem trimmed_printInt (n : Int) : Trimmed (printInt n) := by
  have hdigits : ∀ n, ∀ c ∈ Nat.toDigits 10 n, c.isDigit = true :=
    fun n c hc => Nat.isDigit_of_mem_toDigits (by decide) (by decide) hc
  cases n with
  | ofNat n => exact trimmed_digits (hdigits n)
  | negSucc n =>
      obtain ⟨_, hlast⟩ := trimmed_digits (hdigits (n + 1))
      refine ⟨?_, ?_⟩
      · rintro c ⟨⟩
        decide
      · rw [printInt, List.getLast?_cons_of_ne_nil Nat.toDigits_ne_nil]
        exact hlast

theorem Json.printItems_end (items : List Json) : ∃ text, Json.printItems items = text ++ [']'] := by
  induction items with
  | nil => exact ⟨[], rfl⟩
  | cons v rest ih =>
      obtain ⟨text, htext⟩ := ih
      exact ⟨',' :: v.print ++ text, by rw [Json.printItems, htext, List.append_assoc]⟩

theorem Json.printFields_end (fields : List (String × Json)) :
    ∃ text, Json.printFields fields = text ++ ['\x7d'] := by
  induction fields with
  | nil => exact ⟨[], rfl⟩
  | cons f rest ih =>
      obtain ⟨k, v⟩ := f
      obtain ⟨text, htext⟩ := ih
      refine ⟨',' :: printString k.toList ++ (':' :: v.print ++ text), ?_⟩
      rw [Json.printFields, htext, List.append_assoc, List.append_assoc, List.append_assoc]

theorem Json.trimmed_print_obj (fields : List (String × Json)) : Trimmed (Json.obj fields).print := by
  cases fields with
  | nil => exact trimmed_enclosed (by decide) (by decide) []
  | cons f rest =>
      obtain ⟨k, v⟩ := f
      obtain ⟨text, htext⟩ := Json.printFields_end rest
      rw [Json.print, htext, ← List.append_assoc]
      exact trimmed_enclosed (by decide) (by decide) _

theorem Json.trimmed_print {v : Json} {depth : Nat} (h : v.storable depth = true) : Trimmed v.print := by
  cases v with
  | null => exact trimmed_enclosed (by decide) (by decide) ['u', 'l']
  | bool b =>
      cases b with
      | true => exact trimmed_enclosed (by decide) (by decide) ['r', 'u']
      | false => exact trimmed_enclosed (by decide) (by decide) ['a', 'l', 's']
  | int n => exact trimmed_printInt n
  | float literal => simp [Json.storable] at h
  | str s => exact trimmed_enclosed (by decide) (by decide) _
  | arr items =>
      cases items with
      | nil => exact trimmed_enclosed (by decide) (by decide) []
      | cons v rest =>
          obtain ⟨text, htext⟩ := Json.printItems_end rest
          rw [Json.print, htext, ← List.append_assoc]
          exact trimmed_enclosed (by decide) (by decide) _
  | obj fields => exact Json.trimmed_print_obj fields

/-- Compact text, read between blanks. -/
def jsonLine : JsonCodec where
  toString v := jsonText.toString v
  fromStr s := parseText (trimChars s.toList)
  fromStr_toString v hv := by
    have htext : trimChars (jsonText.toString v).toList = v.print := by
      rw [show (jsonText.toString v).toList = v.print from String.toList_ofList]
      exact trimChars_of_trimmed (Json.trimmed_print hv)
    have hread : parseText (String.ofList v.print).toList = some v := jsonText.fromStr_toString v hv
    rwa [String.toList_ofList, ← htext] at hread

theorem jsonLine_fromStr (s : String) : jsonLine.fromStr s = parseText (trimChars s.toList) := rfl

theorem jsonLine_oneLineText : OneLineText jsonLine where
  oneLine v hv := by
    rw [show (jsonLine.toString v).toList = v.print from String.toList_ofList]
    exact Json.print_oneLine v hv
  brace fields := by
    rw [show (jsonLine.toString (.obj fields)).toList = (Json.obj fields).print from String.toList_ofList]
    cases fields with
    | nil => exact ⟨_, rfl⟩
    | cons f rest => exact ⟨_, rfl⟩
  blanks before text after hbefore hafter := by
    have htrim := trimChars_blanks (fun c hc => isWhitespace_of_jsonBlank (hbefore c hc))
      (fun c hc => isWhitespace_of_jsonBlank (hafter c hc)) text
    rw [jsonLine_fromStr, jsonLine_fromStr, String.toList_ofList, String.toList_ofList, htrim]
  nothing := rfl

/-! ## Blank texts -/

/-- No document is read from white space. -/
def JsonCodec.BlankUnread (json : JsonCodec) : Prop :=
  ∀ text, (trimText text).isEmpty = true → json.fromStr text = none

theorem parseValue_whitespace {c : Char} (hc : isWhitespace c = true) (fuel : Nat) (rest : List Char) :
    parseValue (fuel + 1) (c :: rest) = none := by
  have hdigit : c.isDigit = false := by
    by_contra hdigit
    simp [isWhitespace, Char.isDigit, UInt32.le_iff_toNat_le] at hc hdigit
    omega
  rw [parseValue, hdigit, if_neg Bool.false_ne_true]
  -- no value starts with a blank
  all_goals
    intros
    subst_vars
    exact absurd hc (by decide)

theorem jsonText_blankUnread : jsonText.BlankUnread := by
  intro text hempty
  have hblank := isWhitespace_of_trimText hempty
  show parseText text.toList = none
  cases htext : text.toList with
  | nil => rfl
  | cons c rest =>
      rw [parseText, List.length_cons, parseValue_whitespace (hblank c (by simp [htext]))]

end Godwit
