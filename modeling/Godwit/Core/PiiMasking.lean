import Mathlib.Logic.Function.Basic
import Godwit.Lib.Redaction

set_option autoImplicit false

/-! # Masking personal data (`godwit-core/src/pii_masking.rs`)

`PiiMasker.mask` replaces the matches of every pattern by the pattern's placeholder and remembers
what it replaced under the request id; `PiiMasker.unmask` replays the remembered replacements on a
text. Texts are lists of characters addressed by UTF-8 byte offsets. A panic of the program (an
offset inside a character or past the end) is `none`.

The offsets of `mask` are `usize` and those of `unmask` are `isize`. In the release build both wrap,
and since a text is shorter than `2 ^ 63` bytes every wrapped value is the exact one, so they are
integers here. -/

namespace Godwit

/-- A Rust string: characters, addressed by byte offsets. -/
abbrev Text := List Char

/-- `str::len`, in bytes. -/
def Text.len (t : Text) : Nat := extent Char.utf8Size t

/-- What a matcher reports on a text: non-empty ranges at character boundaries, from left to right
    and without overlap. -/
structure ValidMatches (text : Text) (found : List (Nat × Nat)) : Prop where
  nonempty : ∀ m ∈ found, m.1 < m.2
  boundary : ∀ m ∈ found, (slice? Char.utf8Size text m.1 m.2).isSome
  ordered : found.Pairwise fun m m' => m.2 ≤ m'.1

/-- A pattern: the compiled expression is a matcher with the guarantees of `Regex::find_iter`. -/
structure PiiPattern where
  name : String
  findIter : Text → List (Nat × Nat)
  replacement : Text
  findIter_valid : ∀ text, ValidMatches text (findIter text)

/-- One remembered replacement. -/
structure Replacement where
  start : Nat
  stop : Nat
  original : Text
  placeholder : Text
  deriving DecidableEq, Repr

/-- The patterns and the replacements recorded for each masked text. -/
structure PiiMasker where
  patterns : List PiiPattern
  maskMap : String → Option (List Replacement)

/-- `PiiMasker::new`. -/
def PiiMasker.new (patterns : List PiiPattern) : PiiMasker := ⟨patterns, fun _ => none⟩

/-! ## mask -/

/-- The loop over the matches of one pattern. The matches are offsets into the text before the
    loop; `offset` is what the replacements so far have taken out of it. -/
def maskMatches (placeholder : Text) :
    List (Nat × Nat) → Int → Text → List Replacement → Option (Text × List Replacement)
  | [], _, masked, replacements => some (masked, replacements)
  | (matchStart, matchEnd) :: rest, offset, masked, replacements => do
    let start := (matchStart - offset).toNat
    let stop := (matchEnd - offset).toNat
    let original ← slice? Char.utf8Size masked start stop
    let masked ← replaceRange? Char.utf8Size masked start stop placeholder
    maskMatches placeholder rest (offset + (stop - start - placeholder.len)) masked
      (replacements ++ [⟨start, stop, original, placeholder⟩])

/-- The loop over the patterns. -/
def maskPatterns :
    List PiiPattern → Text → List Replacement → Option (Text × List Replacement)
  | [], masked, replacements => some (masked, replacements)
  | pattern :: rest, masked, replacements => do
    let (masked, replacements) ←
      maskMatches pattern.replacement (pattern.findIter masked) 0 masked replacements
    maskPatterns rest masked replacements

/-- The masked text, and the masker with the replacements stored under the request id. -/
def PiiMasker.mask (masker : PiiMasker) (text : Text) (requestId : String) :
    Option Text × PiiMasker :=
  match maskPatterns masker.patterns text [] with
  | none => (none, masker)
  | some (masked, replacements) =>
    (some masked,
      { masker with maskMap := Function.update masker.maskMap requestId (some replacements) })

/-! ## unmask -/

/-- The loop of `unmask`: the offset grows by what each original is longer than its placeholder. -/
def unmaskReplacements : List Replacement → Int → Text → Option Text
  | [], _, unmasked => some unmasked
  | r :: rest, offset, unmasked => do
    let placeholderStart : Int := r.start + offset
    -- a negative start wraps to an offset past every text
    if placeholderStart < 0 then none
    else
      let start := placeholderStart.toNat
      let unmasked ← replaceRange? Char.utf8Size unmasked start (start + r.placeholder.len)
        r.original
      unmaskReplacements rest (offset + (r.original.len - r.placeholder.len)) unmasked

/-- The entry of the request is removed before the replacements are replayed. -/
def PiiMasker.unmask (masker : PiiMasker) (maskedText : Text) (requestId : String) :
    Option Text × PiiMasker :=
  match masker.maskMap requestId with
  | some replacements =>
    (unmaskReplacements replacements 0 maskedText,
      { masker with maskMap := Function.update masker.maskMap requestId none })
  | none => (some maskedText, masker)

end Godwit
