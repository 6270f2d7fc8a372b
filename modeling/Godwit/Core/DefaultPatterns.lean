import Godwit.Lib.ClassRegex
import Godwit.Core.Guardrails

set_option autoImplicit false

/-! # The default patterns (`default_patterns` of `pii_masking.rs`)

`Regex::find_iter` on the expressions as `ClassRegex.scan`. Which characters are digits (`\d`) and which
are part of a word (`\b`) is up to the Unicode tables of the regex engine. -/

namespace Godwit

/-! ## Ranges of matches -/

/-- The byte ranges of the matches, in a text that begins at this offset. -/
def spansOf : Nat → List (Piece Char) → List (Nat × Nat)
  | _, [] => []
  | pos, .kept c :: rest => spansOf (pos + c.utf8Size) rest
  | pos, .found m :: rest => (pos, pos + Text.len m) :: spansOf (pos + Text.len m) rest

theorem spansOf_valid (before : Text) {pieces : List (Piece Char)} (hne : ∀ m, .found m ∈ pieces → m ≠ []) :
    ValidMatches (before ++ textOf pieces) (spansOf before.len pieces)
      ∧ ∀ span ∈ spansOf before.len pieces, before.len ≤ span.1 := by
  induction pieces generalizing before with
  | nil => exact ⟨⟨by simp [spansOf], by simp [spansOf], by simp [spansOf]⟩, by simp [spansOf]⟩
  | cons piece rest ih =>
      have hrest : ∀ m, .found m ∈ rest → m ≠ [] := fun m hm => hne m (List.mem_cons_of_mem _ hm)
      cases piece with
      | kept c =>
          have hlen : Text.len (before ++ [c]) = before.len + c.utf8Size := by simp [Text.len]
          obtain ⟨hvalid, hfrom⟩ := ih (before ++ [c]) hrest
          rw [hlen] at hvalid hfrom
          refine ⟨by simpa [spansOf, Piece.text] using hvalid, fun span hspan => ?_⟩
          have hle := hfrom span hspan
          omega
      | found m =>
          have hlen : Text.len (before ++ m) = before.len + Text.len m := by simp [Text.len]
          have hpos : 0 < Text.len m := by
            cases m with
            | nil => exact absurd rfl (hne [] List.mem_cons_self)
            | cons c m =>
                have hc := c.utf8Size_pos
                simp [Text.len]
                omega
          obtain ⟨hvalid, hfrom⟩ := ih (before ++ m) hrest
          rw [hlen] at hvalid hfrom
          rw [List.append_assoc] at hvalid
          refine ⟨⟨?_, ?_, ?_⟩, ?_⟩
          · exact List.forall_mem_cons.2 ⟨by simpa using hpos, hvalid.nonempty⟩
          · refine List.forall_mem_cons.2 ⟨?_, hvalid.boundary⟩
            have hslice := slice?_append Char.utf8Size Char.utf8Size_pos before m (textOf rest)
            rw [List.append_assoc] at hslice
            rw [textOf_cons, Piece.text]
            exact Option.isSome_iff_exists.2 ⟨m, hslice⟩
          · exact List.pairwise_cons.2 ⟨fun span hspan => hfrom span hspan, hvalid.ordered⟩
          · refine List.forall_mem_cons.2 ⟨Nat.le_refl _, fun span hspan => ?_⟩
            have hle := hfrom span hspan
            omega

/-! ## Expressions of the regex engine -/

/-- The tables behind `\d` and `\b`, of which only the ASCII part is fixed here. -/
structure UnicodeTables where
  isDigit : Char → Bool
  isWord : Char → Bool
  isDigit_ascii : ∀ c : Char, c.toNat < 128 → isDigit c = c.isDigit
  isWord_ascii : ∀ c : Char, c.toNat < 128 → isWord c = (c.isAlphanum || c == '_')
  isWord_of_isDigit : ∀ c, isDigit c = true → isWord c = true

/-- The pattern of a `PiiPattern` before it is compiled. -/
structure PiiRegex (U : UnicodeTables) where
  name : String
  pattern : ClassRegex Char
  replacement : Text
  nonempty : pattern.Nonempty U.isWord

/-- The pattern with its matches, which are never empty and do not overlap. -/
def PiiRegex.compile {U : UnicodeTables} (p : PiiRegex U) : PiiPattern where
  name := p.name
  findIter text := spansOf 0 (scan U.isWord p.pattern text)
  replacement := p.replacement
  findIter_valid text := by
    have hscans := scan_scans p.nonempty text
    have hvalid := (spansOf_valid [] fun m hm => hscans.ne_nil_of_mem hm).1
    rwa [hscans.textOf_eq] at hvalid

/-- The text with a placeholder for every match. -/
def PiiRegex.shown {U : UnicodeTables} (p : PiiRegex U) (text : Text) : Text :=
  shownOf p.replacement (scan U.isWord p.pattern text)

/-- The text contains something that the pattern matches. -/
def PiiRegex.Occurs {U : UnicodeTables} (p : PiiRegex U) (text : Text) : Prop :=
  Godwit.Occurs U.isWord p.pattern text

namespace UnicodeTables

variable (U : UnicodeTables)

/-- `\d{n}`. -/
def digits (n : Nat) : ClassRegex Char := List.replicate n (.one U.isDigit)

/-- A group that begins and ends with a digit, between word boundaries. -/
theorem nonempty_of_digits {re : ClassRegex Char} :
    ClassRegex.Nonempty U.isWord (.boundary :: .one U.isDigit :: re) := by
  intro prev next h
  cases h with
  | boundary _ h => cases h

/-! ## default_patterns -/

/-- The symbol between the groups of a number. -/
def dash (c : Char) : Bool := c == '-'

/-- `[-\s]`. -/
def dashOrSpace (c : Char) : Bool := c == '-' || isWhitespace c

/-- `[-.\s]`. -/
def dashDotOrSpace (c : Char) : Bool := c == '-' || c == '.' || isWhitespace c

/-- `[a-zA-Z0-9._%+-]`. -/
def localPart (c : Char) : Bool := c.isAlphanum || c == '.' || c == '_' || c == '%' || c == '+' || c == '-'

/-- `[a-zA-Z0-9.-]`. -/
def domainPart (c : Char) : Bool := c.isAlphanum || c == '.' || c == '-'

/-- The pattern of a social security number; its name in the list is `phone`. -/
def ssn : PiiRegex U where
  name := "phone"
  pattern := .boundary :: (U.digits 3 ++ [.one dash] ++ U.digits 2 ++ [.one dash] ++ U.digits 4 ++ [.boundary])
  replacement := "[SSN]".toList
  nonempty := U.nonempty_of_digits

/-- The pattern of a card number: four groups of four digits. -/
def card : PiiRegex U where
  name := "credit_card"
  pattern := .boundary :: (U.digits 4 ++ [.opt dashOrSpace] ++ U.digits 4 ++ [.opt dashOrSpace] ++ U.digits 4
    ++ [.opt dashOrSpace] ++ U.digits 4 ++ [.boundary])
  replacement := "[CARD]".toList
  nonempty := U.nonempty_of_digits

/-- The pattern of an e-mail address, without word boundaries. -/
def email : PiiRegex U where
  name := "email"
  pattern := [.one localPart, .many localPart, .one (· == '@'), .one domainPart, .many domainPart,
    .one (· == '.'), .one Char.isAlpha, .one Char.isAlpha, .many Char.isAlpha]
  replacement := "[EMAIL]".toList
  nonempty _ _ h := by cases h

/-- The pattern of a telephone number. -/
def phone : PiiRegex U where
  name := "phone"
  pattern := .boundary :: (U.digits 3 ++ [.opt dashDotOrSpace] ++ U.digits 3 ++ [.opt dashDotOrSpace]
    ++ U.digits 4 ++ [.boundary])
  replacement := "[PHONE]".toList
  nonempty := U.nonempty_of_digits

/-- The expressions of `PiiMasker::default`, in order. -/
def defaultRegexes : List (PiiRegex U) := [U.ssn, U.card, U.email, U.phone]

/-- The patterns of `PiiMasker::default`. -/
def defaultPatterns : List PiiPattern := U.defaultRegexes.map PiiRegex.compile

end UnicodeTables

end Godwit
