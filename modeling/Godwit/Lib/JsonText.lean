import Mathlib.Data.List.TakeDrop
import Mathlib.Data.List.TakeWhile
import Godwit.Lib.Json

set_option autoImplicit false

/-! # JSON text

A printer of compact JSON text, a parser for it, and the codec they form: `parseValue_print` reads
every printed document back. Strings are escaped the way `serde_json` escapes them: the two-character
escapes where JSON has one, `\u00xy` for the other control characters, and everything else as it
is. -/

namespace Godwit

/-! ## Printing -/

/-- How a character is written in a string. -/
def escapeChar (c : Char) : List Char :=
  if c = '"' then ['\\', '"']
  else if c = '\\' then ['\\', '\\']
  else if c.toNat = 8 then ['\\', 'b']
  else if c.toNat = 12 then ['\\', 'f']
  else if c = '\n' then ['\\', 'n']
  else if c = '\r' then ['\\', 'r']
  else if c = '\t' then ['\\', 't']
  else if c.toNat < 32 then
    ['\\', 'u', '0', '0', Nat.digitChar (c.toNat / 16), Nat.digitChar (c.toNat % 16)]
  else [c]

/-- A string with its quotes. -/
def printString (s : List Char) : List Char := '"' :: s.flatMap escapeChar ++ ['"']

/-- A number without a point. -/
def printInt : Int → List Char
  | .ofNat n => Nat.toDigits 10 n
  | .negSucc n => '-' :: Nat.toDigits 10 (n + 1)

mutual

/-- The text of a document, without blanks. -/
def Json.print : Json → List Char
  | .null => ['n', 'u', 'l', 'l']
  | .bool true => ['t', 'r', 'u', 'e']
  | .bool false => ['f', 'a', 'l', 's', 'e']
  | .int n => printInt n
  | .float literal => literal.toList
  | .str s => printString s.toList
  | .arr [] => ['[', ']']
  | .arr (v :: rest) => '[' :: v.print ++ Json.printItems rest
  | .obj [] => ['{', '}']
  | .obj ((k, v) :: rest) => '{' :: printString k.toList ++ ':' :: v.print ++ Json.printFields rest

/-- The items after the first one, and the closing bracket. -/
def Json.printItems : List Json → List Char
  | [] => [']']
  | v :: rest => ',' :: v.print ++ Json.printItems rest

/-- The fields after the first, and the closing brace. -/
def Json.printFields : List (String × Json) → List Char
  | [] => ['}']
  | (k, v) :: rest => ',' :: printString k.toList ++ ':' :: v.print ++ Json.printFields rest

end

/-! ## Parsing -/

/-- The value of a hexadecimal digit. -/
def hexValue (c : Char) : Option Nat :=
  if '0' ≤ c ∧ c ≤ '9' then some (c.toNat - 48)
  else if 'a' ≤ c ∧ c ≤ 'f' then some (c.toNat - 87)
  else if 'A' ≤ c ∧ c ≤ 'F' then some (c.toNat - 55)
  else none

/-- The character a two-character escape stands for. -/
def unescape : Char → Option Char
  | '"' => some '"'
  | '\\' => some '\\'
  | '/' => some '/'
  | 'b' => some (Char.ofNat 8)
  | 'f' => some (Char.ofNat 12)
  | 'n' => some '\n'
  | 'r' => some '\r'
  | 't' => some '\t'
  | _ => none

/-- The rest of a string after its opening quote. -/
def parseString : List Char → Option (List Char × List Char)
  | [] => none
  | '"' :: rest => some ([], rest)
  | '\\' :: 'u' :: a :: b :: c :: d :: rest => do
    let a ← hexValue a
    let b ← hexValue b
    let c ← hexValue c
    let d ← hexValue d
    let (s, rest) ← parseString rest
    some (Char.ofNat (4096 * a + 256 * b + 16 * c + d) :: s, rest)
  | '\\' :: e :: rest => do
    let c ← unescape e
    let (s, rest) ← parseString rest
    some (c :: s, rest)
  | c :: rest => do
    if c.toNat < 32 then none
    else
      let (s, rest) ← parseString rest
      some (c :: s, rest)

/-- The digits at the start of the text, as a number. -/
def parseNat (text : List Char) : Option (Nat × List Char) :=
  match text.span Char.isDigit with
  | ([], _) => none
  | (digits, rest) => some (Nat.ofDigitChars 10 digits 0, rest)

/-- A field name and the colon after it. -/
def parseKey : List Char → Option (String × List Char)
  | '"' :: rest => do
    match ← parseString rest with
    | (key, ':' :: rest) => some (String.ofList key, rest)
    | _ => none
  | _ => none

mutual

/-- A document at the start of the text; the fuel bounds the recursion. -/
def parseValue : Nat → List Char → Option (Json × List Char)
  | 0, _ => none
  | _, [] => none
  | fuel + 1, first :: text =>
    if first.isDigit then (parseNat (first :: text)).map fun p => (.int p.1, p.2)
    else
      match first, text with
      | '-', rest => (parseNat rest).map fun p => (.int (-p.1), p.2)
      | 'n', 'u' :: 'l' :: 'l' :: rest => some (.null, rest)
      | 't', 'r' :: 'u' :: 'e' :: rest => some (.bool true, rest)
      | 'f', 'a' :: 'l' :: 's' :: 'e' :: rest => some (.bool false, rest)
      | '"', rest => (parseString rest).map fun p => (.str (String.ofList p.1), p.2)
      | '[', ']' :: rest => some (.arr [], rest)
      | '[', rest => do
        let (v, rest) ← parseValue fuel rest
        let (items, rest) ← parseItems fuel rest
        some (.arr (v :: items), rest)
      | '{', '}' :: rest => some (.obj [], rest)
      | '{', rest => do
        let (k, rest) ← parseKey rest
        let (v, rest) ← parseValue fuel rest
        let (fields, rest) ← parseFields fuel rest
        some (.obj ((k, v) :: fields), rest)
      | _, _ => none

/-- The items after the first. -/
def parseItems : Nat → List Char → Option (List Json × List Char)
  | 0, _ => none
  | fuel + 1, text =>
    match text with
    | ']' :: rest => some ([], rest)
    | ',' :: rest => do
      let (v, rest) ← parseValue fuel rest
      let (items, rest) ← parseItems fuel rest
      some (v :: items, rest)
    | _ => none

/-- The fields after the first. -/
def parseFields : Nat → List Char → Option (List (String × Json) × List Char)
  | 0, _ => none
  | fuel + 1, text =>
    match text with
    | '}' :: rest => some ([], rest)
    | ',' :: rest => do
      let (k, rest) ← parseKey rest
      let (v, rest) ← parseValue fuel rest
      let (fields, rest) ← parseFields fuel rest
      some ((k, v) :: fields, rest)
    | _ => none

end

/-- A whole text is one value. -/
def parseText (text : List Char) : Option Json :=
  match parseValue text.length text with
  | some (v, []) => some v
  | _ => none

/-! ## Strings and numbers are read back -/

theorem hexValue_digitChar : ∀ n < 16, hexValue (Nat.digitChar n) = some n := by decide

/-- A character is written as an escape of its own, as its code point, or as it is. -/
theorem escapeChar_cases (c : Char) :
    (∃ e, unescape e = some c ∧ escapeChar c = ['\\', e])
      ∨ (c.toNat < 32
        ∧ escapeChar c = ['\\', 'u', '0', '0', Nat.digitChar (c.toNat / 16), Nat.digitChar (c.toNat % 16)])
      ∨ (c ≠ '"' ∧ c ≠ '\\' ∧ 32 ≤ c.toNat ∧ escapeChar c = [c]) := by
  have hback : ∀ n, c.toNat = n → c = Char.ofNat n := by
    rintro n rfl
    exact (Char.ofNat_toNat c).symm
  by_cases hquote : c = '"'
  · exact .inl ⟨'"', by rw [hquote]; rfl, by rw [hquote]; rfl⟩
  by_cases hslash : c = '\\'
  · exact .inl ⟨'\\', by rw [hslash]; rfl, by rw [hslash]; rfl⟩
  by_cases hb : c.toNat = 8
  · exact .inl ⟨'b', by rw [hback 8 hb]; rfl, by rw [hback 8 hb]; rfl⟩
  by_cases hf : c.toNat = 12
  · exact .inl ⟨'f', by rw [hback 12 hf]; rfl, by rw [hback 12 hf]; rfl⟩
  by_cases hn : c = '\n'
  · exact .inl ⟨'n', by rw [hn]; rfl, by rw [hn]; rfl⟩
  by_cases hr : c = '\r'
  · exact .inl ⟨'r', by rw [hr]; rfl, by rw [hr]; rfl⟩
  by_cases ht : c = '\t'
  · exact .inl ⟨'t', by rw [ht]; rfl, by rw [ht]; rfl⟩
  rw [escapeChar, if_neg hquote, if_neg hslash, if_neg hb, if_neg hf, if_neg hn, if_neg hr, if_neg ht]
  by_cases hcontrol : c.toNat < 32
  · exact .inr (.inl ⟨hcontrol, if_pos hcontrol⟩)
  · exact .inr (.inr ⟨hquote, hslash, Nat.le_of_not_lt hcontrol, if_neg hcontrol⟩)

theorem parseString_escapeChar (c : Char) (text : List Char) :
    parseString (escapeChar c ++ text) = (parseString text).map fun p => (c :: p.1, p.2) := by
  rcases escapeChar_cases c with ⟨e, hback, hwritten⟩ | ⟨hcontrol, hwritten⟩ | ⟨hquote, hslash, hplain, hwritten⟩ <;>
    rw [hwritten]
  · have hu : e ≠ 'u' := by
      rintro rfl
      cases hback
    cases h : parseString text <;> simp [parseString, hu, hback, h]
  · -- the code point is read back from its two hexadecimal digits
    have hhigh := hexValue_digitChar (c.toNat / 16) (by omega)
    have hlow := hexValue_digitChar (c.toNat % 16) (by omega)
    have hzero : hexValue '0' = some 0 := by decide
    have hcode : Char.ofNat (4096 * 0 + 256 * 0 + 16 * (c.toNat / 16) + c.toNat % 16) = c := by
      rw [show 4096 * 0 + 256 * 0 + 16 * (c.toNat / 16) + c.toNat % 16 = c.toNat by omega, Char.ofNat_toNat]
    simp only [List.cons_append, List.nil_append, parseString, hhigh, hlow, hzero,
      Option.bind_eq_bind, Option.bind_some, hcode]
    cases h : parseString text <;> simp
  · cases h : parseString text <;> simp [parseString, hslash, Nat.not_lt.2 hplain, h]

theorem parseString_print (s rest : List Char) :
    parseString (s.flatMap escapeChar ++ '"' :: rest) = some (s, rest) := by
  induction s with
  | nil => simp [parseString]
  | cons c s ih =>
      rw [List.flatMap_cons, List.append_assoc, parseString_escapeChar, ih]
      rfl

/-- The text does not go on with a digit. -/
def NoDigit (text : List Char) : Prop := ∀ c ∈ text.head?, c.isDigit = false

theorem parseNat_print (n : Nat) {rest : List Char} (hrest : NoDigit rest) :
    parseNat (Nat.toDigits 10 n ++ rest) = some (n, rest) := by
  have hdigits : ∀ c ∈ Nat.toDigits 10 n, c.isDigit = true := fun c hc =>
    Nat.isDigit_of_mem_toDigits (by decide) (by decide) hc
  have hspan : (Nat.toDigits 10 n ++ rest).span Char.isDigit = (Nat.toDigits 10 n, rest) := by
    rw [List.span_eq_takeWhile_dropWhile, List.takeWhile_append_of_pos hdigits,
      List.dropWhile_append_of_pos hdigits]
    cases rest with
    | nil => simp
    | cons c rest =>
        have hc : c.isDigit = false := hrest c rfl
        simp [hc]
  rw [parseNat, hspan]
  cases hd : Nat.toDigits 10 n with
  | nil => exact absurd hd Nat.toDigits_ne_nil
  | cons d ds =>
      have hvalue := @Nat.ofDigitChars_ten_toDigits n
      rw [hd] at hvalue
      simp only [hvalue]

theorem parseKey_print (k : String) (rest : List Char) :
    parseKey (printString k.toList ++ ':' :: rest) = some (k, rest) := by
  simp [printString, parseKey, parseString_print]

/-! ## Values are read back -/

/-- A printed value starts with neither a closing bracket nor nothing. -/
theorem Json.print_head {v : Json} {depth : Nat} (h : v.storable depth = true) :
    ∃ c text, v.print = c :: text ∧ c ≠ ']' := by
  cases v with
  | null => exact ⟨_, _, rfl, by decide⟩
  | bool b => cases b <;> exact ⟨_, _, rfl, by decide⟩
  | int n =>
      cases n with
      | ofNat n =>
          cases hd : Nat.toDigits 10 n with
          | nil => exact absurd hd Nat.toDigits_ne_nil
          | cons d ds =>
              refine ⟨d, ds, by simp [Json.print, printInt, hd], ?_⟩
              rintro rfl
              have hdigit : (']').isDigit = true :=
                Nat.isDigit_of_mem_toDigits (b := 10) (n := n) (by decide) (by decide) (by simp [hd])
              exact absurd hdigit (by decide)
      | negSucc n => exact ⟨_, _, rfl, by decide⟩
  | float literal => simp [Json.storable] at h
  | str s => exact ⟨_, _, rfl, by decide⟩
  | arr items => cases items <;> exact ⟨_, _, rfl, by decide⟩
  | obj fields =>
      cases fields with
      | nil => exact ⟨_, _, rfl, by decide⟩
      | cons f fields => exact ⟨_, _, rfl, by decide⟩

theorem parseValue_bracket (fuel : Nat) {c : Char} (hc : c ≠ ']') (text : List Char) :
    parseValue (fuel + 1) ('[' :: c :: text) = (do
      let (v, rest) ← parseValue fuel (c :: text)
      let (items, rest) ← parseItems fuel rest
      some (.arr (v :: items), rest)) := by
  simp [parseValue, hc]

theorem parseValue_brace (fuel : Nat) (k : String) (text : List Char) :
    parseValue (fuel + 1) ('{' :: (printString k.toList ++ text)) = (do
      let (k, rest) ← parseKey (printString k.toList ++ text)
      let (v, rest) ← parseValue fuel rest
      let (fields, rest) ← parseFields fuel rest
      some (.obj ((k, v) :: fields), rest)) := by
  simp [printString, parseValue]

theorem Json.printItems_noDigit (items : List Json) (rest : List Char) :
    NoDigit (Json.printItems items ++ rest) := by
  cases items <;> simp [NoDigit, Json.printItems]

theorem Json.printFields_noDigit (fields : List (String × Json)) (rest : List Char) :
    NoDigit (Json.printFields fields ++ rest) := by
  cases fields <;> simp [NoDigit, Json.printFields]

mutual

theorem parseValue_print (v : Json) (depth : Nat) (h : v.storable depth = true) (fuel : Nat)
    (hfuel : v.print.length ≤ fuel) (rest : List Char) (hrest : NoDigit rest) :
    parseValue fuel (v.print ++ rest) = some (v, rest) := by
  obtain ⟨fuel, rfl⟩ : ∃ m, fuel = m + 1 := by
    obtain ⟨c, text, hprint, -⟩ := Json.print_head h
    rw [hprint, List.length_cons] at hfuel
    exact ⟨fuel - 1, by omega⟩
  cases v with
  | null => simp [Json.print, parseValue]
  | bool b => cases b <;> simp [Json.print, parseValue]
  | int n =>
      cases n with
      | ofNat n =>
          have hnat := parseNat_print n hrest
          cases hd : Nat.toDigits 10 n with
          | nil => exact absurd hd Nat.toDigits_ne_nil
          | cons d ds =>
              have hdigit : d.isDigit = true :=
                Nat.isDigit_of_mem_toDigits (b := 10) (n := n) (by decide) (by decide) (by simp [hd])
              rw [hd, List.cons_append] at hnat
              simp [Json.print, printInt, hd, parseValue, hdigit, hnat]
      | negSucc n =>
          have hnat := parseNat_print (n + 1) hrest
          simp [Json.print, printInt, parseValue, hnat, Int.negSucc_eq]
  | float literal => simp [Json.storable] at h
  | str s => simp [Json.print, printString, parseValue, parseString_print]
  | arr items =>
      cases items with
      | nil => simp [Json.print, parseValue]
      | cons v items =>
          obtain ⟨depth, rfl, hv, hitems⟩ : ∃ m, depth = m + 1 ∧ v.storable m = true ∧
              Json.storableItems m items = true := by
            cases depth with
            | zero => simp [Json.storable] at h
            | succ m => exact ⟨m, rfl, by simpa [Json.storable, Json.storableItems] using h⟩
          simp only [Json.print, List.cons_append, List.length_cons, List.length_append,
            List.append_assoc] at hfuel ⊢
          have hfirst := parseValue_print v depth hv fuel (by omega)
            (Json.printItems items ++ rest) (Json.printItems_noDigit items rest)
          obtain ⟨c, text, hprint, hc⟩ := Json.print_head hv
          rw [hprint, List.cons_append] at hfirst
          rw [hprint, List.cons_append, parseValue_bracket fuel hc, hfirst]
          simp [parseItems_print items depth hitems fuel (by omega) rest]
  | obj fields =>
      cases fields with
      | nil => simp [Json.print, parseValue]
      | cons f fields =>
          obtain ⟨k, v⟩ := f
          obtain ⟨depth, rfl, hv, hfields⟩ : ∃ m, depth = m + 1 ∧ v.storable m = true ∧
              Json.storableFields m fields = true := by
            cases depth with
            | zero => simp [Json.storable] at h
            | succ m =>
                simp only [Json.storable, Json.storableFields, Bool.and_eq_true] at h
                exact ⟨m, rfl, h.2⟩
          simp only [Json.print, List.cons_append, List.length_cons, List.length_append,
            List.append_assoc] at hfuel ⊢
          rw [parseValue_brace, parseKey_print]
          simp only [Option.bind_eq_bind, Option.bind_some]
          rw [parseValue_print v depth hv fuel (by omega) (Json.printFields fields ++ rest)
            (Json.printFields_noDigit fields rest)]
          simp [parseFields_print fields depth hfields fuel (by omega) rest]

theorem parseItems_print (items : List Json) (depth : Nat)
    (h : Json.storableItems depth items = true) (fuel : Nat)
    (hfuel : (Json.printItems items).length ≤ fuel) (rest : List Char) :
    parseItems fuel (Json.printItems items ++ rest) = some (items, rest) := by
  cases items with
  | nil =>
      obtain ⟨fuel, rfl⟩ : ∃ m, fuel = m + 1 := ⟨fuel - 1, by simp [Json.printItems] at hfuel; omega⟩
      simp [Json.printItems, parseItems]
  | cons v items =>
      simp only [Json.storableItems, Bool.and_eq_true] at h
      simp only [Json.printItems, List.cons_append, List.length_cons, List.length_append,
        List.append_assoc] at hfuel ⊢
      obtain ⟨fuel, rfl⟩ : ∃ m, fuel = m + 1 := ⟨fuel - 1, by omega⟩
      rw [parseItems]
      simp only [Option.bind_eq_bind]
      rw [parseValue_print v depth h.1 fuel (by omega) (Json.printItems items ++ rest)
        (Json.printItems_noDigit items rest)]
      simp [parseItems_print items depth h.2 fuel (by omega) rest]

theorem parseFields_print (fields : List (String × Json)) (depth : Nat)
    (h : Json.storableFields depth fields = true) (fuel : Nat)
    (hfuel : (Json.printFields fields).length ≤ fuel) (rest : List Char) :
    parseFields fuel (Json.printFields fields ++ rest) = some (fields, rest) := by
  cases fields with
  | nil =>
      obtain ⟨fuel, rfl⟩ : ∃ m, fuel = m + 1 := ⟨fuel - 1, by simp [Json.printFields] at hfuel; omega⟩
      simp [Json.printFields, parseFields]
  | cons f fields =>
      obtain ⟨k, v⟩ := f
      simp only [Json.storableFields, Bool.and_eq_true] at h
      simp only [Json.printFields, List.cons_append, List.length_cons, List.length_append,
        List.append_assoc] at hfuel ⊢
      obtain ⟨fuel, rfl⟩ : ∃ m, fuel = m + 1 := ⟨fuel - 1, by omega⟩
      rw [parseFields, parseKey_print]
      simp only [Option.bind_eq_bind, Option.bind_some]
      rw [parseValue_print v depth h.1 fuel (by omega) (Json.printFields fields ++ rest)
        (Json.printFields_noDigit fields rest)]
      simp [parseFields_print fields depth h.2 fuel (by omega) rest]

end

/-- Compact JSON text. -/
def jsonText : JsonCodec where
  toString v := String.ofList v.print
  fromStr s := parseText s.toList
  fromStr_toString v hv := by
    have hparse := parseValue_print v maxDepth hv v.print.length le_rfl [] (by simp [NoDigit])
    rw [List.append_nil] at hparse
    simp [parseText, hparse]

end Godwit
