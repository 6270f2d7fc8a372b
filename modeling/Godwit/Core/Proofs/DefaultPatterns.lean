import Mathlib.Tactic.ByContra
import Godwit.Core.DefaultPatterns
import Godwit.Core.Proofs.PiiMasking

set_option autoImplicit false

/-! # What the default patterns leave of a text

Masking with the default patterns puts a placeholder for every match, one pattern after another. A group of
digits that touches an e-mail address is part of a longer word until the address is replaced, and the patterns
for such groups do not run again. -/

namespace Godwit

/-! ## Masking is replacing what the scans find -/

theorem maskMatches_spansOf (placeholder : Text) (pieces : List (Piece Char)) (masked : Text) (pos : Nat)
    (offset : Int) (replacements : List Replacement) (hpos : pos - offset = masked.len) :
    ∃ new, maskMatches placeholder (spansOf pos pieces) offset (masked ++ textOf pieces) replacements
        = some (masked ++ shownOf placeholder pieces, replacements ++ new)
      ∧ (new = [] ↔ ∀ m, .found m ∉ pieces) ∧ ∀ r ∈ new, r.placeholder = placeholder := by
  induction pieces generalizing masked pos offset replacements with
  | nil => exact ⟨[], by simp [spansOf, maskMatches], by simp, by simp⟩
  | cons piece rest ih =>
      cases piece with
      | kept c =>
          have hlen : Text.len (masked ++ [c]) = masked.len + c.utf8Size := by simp [Text.len]
          obtain ⟨new, hmask, hnew, hplaceholder⟩ :=
            ih (masked ++ [c]) (pos + c.utf8Size) offset replacements (by omega)
          refine ⟨new, ?_, by simpa using hnew, hplaceholder⟩
          simpa [spansOf, Piece.text, Piece.shown] using hmask
      | found m =>
          have hlen : Text.len (masked ++ placeholder) = masked.len + placeholder.len := by simp [Text.len]
          have hstart : (pos - offset).toNat = masked.len := by omega
          have hstop : (((pos + Text.len m : Nat) : Int) - offset).toNat = masked.len + Text.len m := by omega
          have hslice := slice?_append Char.utf8Size Char.utf8Size_pos masked m (textOf rest)
          have hreplace := replaceRange?_append Char.utf8Size Char.utf8Size_pos masked m (textOf rest) placeholder
          obtain ⟨new, hmask, -, hplaceholder⟩ := ih (masked ++ placeholder) (pos + Text.len m)
            (offset + (((masked.len + Text.len m : Nat) : Int) - masked.len - placeholder.len))
            (replacements ++ [⟨masked.len, masked.len + Text.len m, m, placeholder⟩]) (by omega)
          refine ⟨⟨masked.len, masked.len + Text.len m, m, placeholder⟩ :: new, ?_,
            ⟨fun h => absurd h (List.cons_ne_nil _ _), fun h => absurd List.mem_cons_self (h m)⟩,
            List.forall_mem_cons.2 ⟨rfl, hplaceholder⟩⟩
          rw [spansOf, maskMatches, hstart, hstop, textOf_cons, Piece.text, ← List.append_assoc]
          change slice? Char.utf8Size _ masked.len (masked.len + Text.len m) = some m at hslice
          change replaceRange? Char.utf8Size _ masked.len (masked.len + Text.len m) _ = some _ at hreplace
          rw [hslice, hreplace]
          simpa [Piece.shown] using hmask

variable {U : UnicodeTables}

/-- Where a pattern matches nothing it changes nothing. -/
theorem PiiRegex.shown_of_not_occurs {p : PiiRegex U} {text : Text} (h : ¬ p.Occurs text) :
    p.shown text = text := by
  have hscan := scan_scans p.nonempty text
  have hpieces := eq_kept_of_not_found fun m hm => h ((hscan.occurs_iff p.nonempty).2 ⟨m, hm⟩)
  rw [hscan.textOf_eq] at hpieces
  rw [PiiRegex.shown, hpieces, shownOf_kept]

theorem maskPatterns_cons {pattern : PiiPattern} {rest : List PiiPattern} {text masked : Text}
    {replacements replaced : List Replacement}
    (h : maskMatches pattern.replacement (pattern.findIter text) 0 text replacements = some (masked, replaced)) :
    maskPatterns (pattern :: rest) text replacements = maskPatterns rest masked replaced := by
  rw [maskPatterns, h]
  rfl

/-- Masking with the patterns shows the text of one after another, and records a replacement unless there is
nothing to replace. -/
theorem maskPatterns_compile (patterns : List (PiiRegex U)) (text : Text) (replacements : List Replacement) :
    ∃ new, maskPatterns (patterns.map PiiRegex.compile) text replacements
        = some (patterns.foldl (fun text p => p.shown text) text, replacements ++ new)
      ∧ (new = [] ↔ ∀ p ∈ patterns, ¬ p.Occurs text)
      ∧ ∀ r ∈ new, ∃ p ∈ patterns, r.placeholder = p.replacement := by
  induction patterns generalizing text replacements with
  | nil => exact ⟨[], by simp [maskPatterns], by simp, by simp⟩
  | cons p rest ih =>
      have hscan := scan_scans p.nonempty text
      obtain ⟨new, hmask, hnew, hplaceholder⟩ :=
        maskMatches_spansOf p.replacement (scan U.isWord p.pattern text) [] 0 0 replacements (by simp [Text.len])
      rw [hscan.textOf_eq] at hmask
      have hnone : new = [] ↔ ¬ p.Occurs text := by
        rw [hnew]
        exact ⟨fun h hoccurs => ((hscan.occurs_iff p.nonempty).1 hoccurs).elim h,
          fun h m hm => h ((hscan.occurs_iff p.nonempty).2 ⟨m, hm⟩)⟩
      obtain ⟨more, hrest, hmore, hplaceholders⟩ := ih (p.shown text) (replacements ++ new)
      refine ⟨new ++ more, ?_, ?_, ?_⟩
      · have hcompiled : maskMatches p.compile.replacement (p.compile.findIter text) 0 text replacements
            = some (p.shown text, replacements ++ new) := hmask
        rw [List.map_cons, maskPatterns_cons hcompiled, hrest, List.append_assoc, List.foldl_cons]
      · rw [List.append_eq_nil_iff, List.forall_mem_cons, hnone]
        refine and_congr_right fun hp => ?_
        rwa [PiiRegex.shown_of_not_occurs hp] at hmore
      · intro r hr
        rcases List.mem_append.1 hr with hr | hr
        · exact ⟨p, List.mem_cons_self, hplaceholder r hr⟩
        · obtain ⟨q, hq, hreplacement⟩ := hplaceholders r hr
          exact ⟨q, List.mem_cons_of_mem _ hq, hreplacement⟩

/-! ## Groups of digits and e-mail addresses can be told from placeholders -/

namespace UnicodeTables

/-- The replacements of the four patterns. -/
def placeholders : List Text := ["[SSN]".toList, "[CARD]".toList, "[EMAIL]".toList, "[PHONE]".toList]

/-- No placeholder has a digit or an `@`. -/
theorem plain_of_placeholder :
    ∀ placeholder ∈ placeholders, ∀ c ∈ placeholder, c.toNat < 128 ∧ c.isDigit = false ∧ c ≠ '@' := by
  have hall : placeholders.all (·.all fun c => c.toNat < 128 && !c.isDigit && c != '@') = true := by decide
  intro placeholder hplaceholder c hc
  have hplain := List.all_eq_true.1 (List.all_eq_true.1 hall placeholder hplaceholder) c hc
  simpa [and_assoc] using hplain

theorem bracketed_of_placeholder {placeholder : Text} (h : placeholder ∈ placeholders) :
    Bracketed placeholder '[' ']' := by
  simp only [placeholders, List.mem_cons, List.not_mem_nil, or_false] at h
  rcases h with rfl | rfl | rfl | rfl <;> exact ⟨rfl, rfl⟩

theorem not_word_bracket : U.isWord '[' = false ∧ U.isWord ']' = false := by
  rw [U.isWord_ascii '[' (by decide), U.isWord_ascii ']' (by decide)]
  decide

theorem not_digit_bracket : U.isDigit '[' = false ∧ U.isDigit ']' = false := by
  rw [U.isDigit_ascii '[' (by decide), U.isDigit_ascii ']' (by decide)]
  decide

/-! ### Groups of digits -/

/-- The symbol is no bracket of a placeholder. -/
def NotBracket (c : Char) : Prop := c ≠ '[' ∧ c ≠ ']'

/-- A group of digits with separators, between word boundaries. -/
structure DigitGroup (U : UnicodeTables) (re : ClassRegex Char) : Prop where
  shape : ∃ middle, re = .boundary :: .one U.isDigit :: (middle ++ [.one U.isDigit, .boundary])
  classes : ∀ atom ∈ re, atom.Within NotBracket

variable {re : ClassRegex Char}

theorem DigitGroup.bounded (h : U.DigitGroup re) : re.Bounded U.isWord := by
  obtain ⟨middle, rfl⟩ := h.shape
  intro prev s next hmatch
  exact hmatch.bounded U.isWord_of_isDigit U.isWord_of_isDigit

theorem DigitGroup.visible (h : U.DigitGroup re) {placeholder : Text} (hph : placeholder ∈ placeholders) :
    Visible U.isWord re placeholder '[' ']' := by
  intro prev s next hmatch
  have hmem := hmatch.forall_mem h.classes
  refine ⟨fun hin => (hmem _ hin).1 rfl, fun hin => (hmem _ hin).2 rfl, ?_⟩
  obtain ⟨middle, rfl⟩ := h.shape
  cases hmatch with
  | boundary _ hmatch =>
  cases hmatch with
  | @one _ _ _ _ c _ hc _ =>
  refine ⟨c, List.mem_cons_self, fun hin => ?_⟩
  obtain ⟨hascii, hdigit, -⟩ := plain_of_placeholder placeholder hph c hin
  rw [U.isDigit_ascii c hascii, hdigit] at hc
  cases hc

theorem notBracket_of_class {p : Char → Bool} (hleft : p '[' = false) (hright : p ']' = false) {c : Char}
    (hc : p c = true) : NotBracket c := by
  constructor <;>
    · rintro rfl
      simp_all

theorem notBracket_of_isDigit {c : Char} (hc : U.isDigit c = true) : NotBracket c :=
  notBracket_of_class U.not_digit_bracket.1 U.not_digit_bracket.2 hc

theorem within_of_group {sep : Atom Char} (hsep : sep.Within NotBracket)
    (h : ∀ atom ∈ re, atom = .boundary ∨ atom = .one U.isDigit ∨ atom = sep) :
    ∀ atom ∈ re, atom.Within NotBracket := by
  intro atom hatom
  rcases h atom hatom with rfl | rfl | rfl
  · trivial
  · exact fun c => U.notBracket_of_isDigit
  · exact hsep

theorem ssn_digitGroup : U.DigitGroup U.ssn.pattern where
  shape := ⟨U.digits 2 ++ [.one dash] ++ U.digits 2 ++ [.one dash] ++ U.digits 3, rfl⟩
  classes := by
    have hsep : (Atom.one dash).Within NotBracket := fun c => notBracket_of_class rfl rfl
    exact U.within_of_group hsep (by simp [ssn, digits, List.replicate])

theorem card_digitGroup : U.DigitGroup U.card.pattern where
  shape := ⟨U.digits 3 ++ [.opt dashOrSpace] ++ U.digits 4 ++ [.opt dashOrSpace] ++ U.digits 4
    ++ [.opt dashOrSpace] ++ U.digits 3, rfl⟩
  classes := by
    have hsep : (Atom.opt dashOrSpace).Within NotBracket := fun c => notBracket_of_class rfl rfl
    exact U.within_of_group hsep (by simp [card, digits, List.replicate])

theorem phone_digitGroup : U.DigitGroup U.phone.pattern where
  shape := ⟨U.digits 2 ++ [.opt dashDotOrSpace] ++ U.digits 3 ++ [.opt dashDotOrSpace] ++ U.digits 3, rfl⟩
  classes := by
    have hsep : (Atom.opt dashDotOrSpace).Within NotBracket := fun c => notBracket_of_class rfl rfl
    exact U.within_of_group hsep (by simp [phone, digits, List.replicate])

/-! ### E-mail addresses -/

theorem email_no_boundary : ∀ atom ∈ U.email.pattern, atom ≠ .boundary := by
  simp [email]

theorem email_classes : ∀ atom ∈ U.email.pattern, atom.Within NotBracket := by
  have hlocal (c : Char) (hc : localPart c = true) : NotBracket c := notBracket_of_class rfl rfl hc
  have hdomain (c : Char) (hc : domainPart c = true) : NotBracket c := notBracket_of_class rfl rfl hc
  have halpha (c : Char) (hc : c.isAlpha = true) : NotBracket c := notBracket_of_class rfl rfl hc
  have hat (c : Char) (hc : (c == '@') = true) : NotBracket c := by
    rw [beq_iff_eq.1 hc]
    exact ⟨by decide, by decide⟩
  have hdot (c : Char) (hc : (c == '.') = true) : NotBracket c := by
    rw [beq_iff_eq.1 hc]
    exact ⟨by decide, by decide⟩
  simp only [email, List.forall_mem_cons]
  exact ⟨hlocal, hlocal, hat, hdomain, hdomain, hdot, halpha, halpha, halpha, by simp⟩

theorem mem_of_email {prev next : Option Char} {s : Text} (h : Matches U.isWord U.email.pattern prev s next) :
    '@' ∈ s := by
  change Matches U.isWord ([.one localPart, .many localPart] ++ .one (· == '@') :: _) prev s next at h
  obtain ⟨s₁, s₂, hs, hat⟩ := h.split
  cases hat with
  | one hc _ =>
      rw [hs, beq_iff_eq.1 hc]
      simp

theorem email_visible {placeholder : Text} (hph : placeholder ∈ placeholders) :
    Visible U.isWord U.email.pattern placeholder '[' ']' := by
  intro prev s next hmatch
  have hmem := hmatch.forall_mem U.email_classes
  refine ⟨fun hin => (hmem _ hin).1 rfl, fun hin => (hmem _ hin).2 rfl, '@', U.mem_of_email hmatch,
    fun hin => ?_⟩
  exact (plain_of_placeholder placeholder hph _ hin).2.2 rfl

theorem replacement_mem {p : PiiRegex U} (hp : p ∈ U.defaultRegexes) : p.replacement ∈ placeholders := by
  simp only [defaultRegexes, List.mem_cons, List.not_mem_nil, or_false] at hp
  rcases hp with rfl | rfl | rfl | rfl <;> simp [placeholders, ssn, card, email, phone]

theorem email_mem : U.email ∈ U.defaultRegexes := by simp [defaultRegexes]

theorem phone_mem : U.phone ∈ U.defaultRegexes := by simp [defaultRegexes]

theorem visible {p : PiiRegex U} (hp : p ∈ U.defaultRegexes) {placeholder : Text}
    (hph : placeholder ∈ placeholders) : Visible U.isWord p.pattern placeholder '[' ']' := by
  simp only [defaultRegexes, List.mem_cons, List.not_mem_nil, or_false] at hp
  rcases hp with rfl | rfl | rfl | rfl
  · exact U.ssn_digitGroup.visible hph
  · exact U.card_digitGroup.visible hph
  · exact U.email_visible hph
  · exact U.phone_digitGroup.visible hph

/-! ## Marks -/

/-- What every match has one of, and no placeholder. -/
def isMark (c : Char) : Bool := U.isDigit c || c == '@'

theorem mark_of_matches {p : PiiRegex U} (hp : p ∈ U.defaultRegexes) {prev next : Option Char} {s : Text}
    (h : Matches U.isWord p.pattern prev s next) : ∃ c ∈ s, U.isMark c = true := by
  have hdigits {re : ClassRegex Char} (hre : U.DigitGroup re) (h : Matches U.isWord re prev s next) :
      ∃ c ∈ s, U.isMark c = true := by
    obtain ⟨middle, rfl⟩ := hre.shape
    cases h with
    | boundary _ h =>
    cases h with
    | @one _ _ _ _ c _ hc _ => exact ⟨c, List.mem_cons_self, by simp [isMark, hc]⟩
  simp only [defaultRegexes, List.mem_cons, List.not_mem_nil, or_false] at hp
  rcases hp with rfl | rfl | rfl | rfl
  · exact hdigits U.ssn_digitGroup h
  · exact hdigits U.card_digitGroup h
  · exact ⟨'@', U.mem_of_email h, by simp [isMark]⟩
  · exact hdigits U.phone_digitGroup h

theorem not_mark_of_placeholder {placeholder : Text} (hph : placeholder ∈ placeholders) :
    ∀ c ∈ placeholder, U.isMark c = false := by
  intro c hc
  obtain ⟨hascii, hdigit, hat⟩ := plain_of_placeholder placeholder hph c hc
  simp [isMark, U.isDigit_ascii c hascii, hdigit, hat]

/-- A pattern that matches something takes marks out of the text. -/
theorem countP_shown {p : PiiRegex U} (hp : p ∈ U.defaultRegexes) (text : Text) :
    (p.shown text).countP U.isMark ≤ text.countP U.isMark
      ∧ ((p.shown text).countP U.isMark = text.countP U.isMark → ¬ p.Occurs text) := by
  have hscan := scan_scans p.nonempty text
  have hcount := countP_shownOf (scan U.isWord p.pattern text)
    (U.not_mark_of_placeholder (U.replacement_mem hp)) fun m hm => by
      obtain ⟨before, after, hpieces⟩ := List.append_of_mem hm
      rw [hpieces] at hscan
      exact U.mark_of_matches hp hscan.found_matches.2
  rw [hscan.textOf_eq] at hcount
  refine ⟨hcount.1, fun heq hoccurs => ?_⟩
  obtain ⟨m, hm⟩ := (hscan.occurs_iff p.nonempty).1 hoccurs
  exact hcount.2 heq m hm

/-- Default patterns one after another leave a text alone exactly when none of them matches anything in it. -/
theorem foldl_shown_eq_iff {patterns : List (PiiRegex U)} (hpatterns : ∀ p ∈ patterns, p ∈ U.defaultRegexes)
    (text : Text) :
    patterns.foldl (fun text p => p.shown text) text = text ↔ ∀ p ∈ patterns, ¬ p.Occurs text := by
  have hmarks : (patterns.foldl (fun text p => p.shown text) text).countP U.isMark ≤ text.countP U.isMark
      ∧ ((patterns.foldl (fun text p => p.shown text) text).countP U.isMark = text.countP U.isMark →
        ∀ p ∈ patterns, ¬ p.Occurs text) := by
    induction patterns generalizing text with
    | nil => simp
    | cons p rest ih =>
        obtain ⟨hp, hrest⟩ := List.forall_mem_cons.1 hpatterns
        obtain ⟨hle, hnone⟩ := U.countP_shown hp text
        obtain ⟨hlerest, hnonerest⟩ := ih hrest (p.shown text)
        rw [List.foldl_cons]
        refine ⟨hlerest.trans hle, fun heq => ?_⟩
        have hfirst := hnone (by omega)
        have hlater := hnonerest (by omega)
        rw [PiiRegex.shown_of_not_occurs hfirst] at hlater
        exact List.forall_mem_cons.2 ⟨hfirst, hlater⟩
  refine ⟨fun heq => hmarks.2 (by rw [heq]), fun hnone => ?_⟩
  clear hmarks hpatterns
  induction patterns with
  | nil => rfl
  | cons p rest ih =>
      obtain ⟨hp, hrest⟩ := List.forall_mem_cons.1 hnone
      rw [List.foldl_cons, PiiRegex.shown_of_not_occurs hp]
      exact ih hrest

/-! ## Groups that an e-mail address hides -/

/-- The text after the first two patterns. -/
def withoutCards (text : Text) : Text := U.card.shown (U.ssn.shown text)

/-- What is left after the first three patterns. -/
def withoutEmails (text : Text) : Text := U.email.shown (U.withoutCards text)

/-- A social security or card number, if the e-mail addresses that it touches were gaps, that is found before
neither the e-mail addresses nor the phone numbers are replaced and is in none of these. -/
def Hidden (text : Text) : Prop :=
  ∃ p ∈ [U.ssn, U.card], ∃ before s after earlier later,
    scan U.isWord U.email.pattern (U.withoutCards text) = before ++ (s.map .kept ++ after)
    ∧ Matches U.isWord p.pattern (lastKept before) s (headKept after)
    ∧ scan U.isWord U.phone.pattern (U.withoutEmails text) = earlier ++ (s.map .kept ++ later)
    ∧ textOf earlier = shownOf U.email.replacement before

theorem withoutEmails_eq {text : Text} {earlier later : List (Piece Char)} {s : Text}
    (h : scan U.isWord U.phone.pattern (U.withoutEmails text) = earlier ++ (s.map .kept ++ later)) :
    U.withoutEmails text = textOf earlier ++ (s ++ textOf later) := by
  have htext := (scan_scans U.phone.nonempty (U.withoutEmails text)).textOf_eq
  rw [h, textOf_append, textOf_append, textOf_kept] at htext
  exact htext.symm

theorem digitGroup_of_mem {p : PiiRegex U} (hp : p ∈ [U.ssn, U.card]) :
    U.DigitGroup p.pattern ∧ p ∈ U.defaultRegexes := by
  simp only [List.mem_cons, List.not_mem_nil, or_false] at hp
  rcases hp with rfl | rfl
  · exact ⟨U.ssn_digitGroup, by simp [defaultRegexes]⟩
  · exact ⟨U.card_digitGroup, by simp [defaultRegexes]⟩

/-- Such a number is matched by its pattern in the text without e-mail addresses. -/
theorem matches_iff_hidden {p : PiiRegex U} {before after : List (Piece Char)}
    {s : Text} :
    Matches U.isWord p.pattern (lastOr none (shownOf U.email.replacement before)) s
        (shownOf U.email.replacement after).head?
      ↔ Matches U.isWord p.pattern (lastKept before) s (headKept after) := by
  have hph : Bracketed U.email.replacement '[' ']' := bracketed_of_placeholder (U.replacement_mem U.email_mem)
  have hbefore := wordAt_lastOr_shownOf hph U.not_word_bracket.2 before
  have hafter := wordAt_head_shownOf hph U.not_word_bracket.1 after
  exact ⟨fun h => h.congr hbefore hafter, fun h => h.congr hbefore.symm hafter.symm⟩

/-- What the first two patterns match in the end is what an e-mail address hid from them. -/
theorem occurs_iff_hidden (text : Text) :
    (∃ p ∈ [U.ssn, U.card], p.Occurs (U.phone.shown (U.withoutEmails text))) ↔ U.Hidden text := by
  have hemail : Bracketed U.email.replacement '[' ']' :=
    bracketed_of_placeholder (U.replacement_mem U.email_mem)
  have hphone : Bracketed U.phone.replacement '[' ']' :=
    bracketed_of_placeholder (U.replacement_mem U.phone_mem)
  have hscan := scan_scans U.phone.nonempty (U.withoutEmails text)
  have hoccurs {p : PiiRegex U} (hp : p ∈ [U.ssn, U.card]) :=
    hscan.occurs_shown_iff U.phone_digitGroup.bounded (U.digitGroup_of_mem hp).1.bounded hphone
      (U.visible (U.digitGroup_of_mem hp).2 (U.replacement_mem U.phone_mem))
  constructor
  · rintro ⟨p, hp, hoccursp⟩
    obtain ⟨earlier, s, later, hpieces, hmatch⟩ := (hoccurs hp).1 hoccursp
    have hsplit := U.withoutEmails_eq hpieces
    obtain ⟨hleft, hright, hmark⟩ :=
      U.visible (U.digitGroup_of_mem hp).2 (U.replacement_mem U.email_mem) _ _ _ hmatch
    obtain ⟨before, after, hkept, hbefore, hafter⟩ := kept_of_shown hemail hleft hright hmark hsplit
    refine ⟨p, hp, before, s, after, earlier, later, hkept, ?_, hpieces, hbefore.symm⟩
    rw [← hbefore, ← hafter] at hmatch
    exact U.matches_iff_hidden.1 hmatch
  · rintro ⟨p, hp, before, s, after, earlier, later, hkept, hmatch, hpieces, hearlier⟩
    refine ⟨p, hp, (hoccurs hp).2 ⟨earlier, s, later, hpieces, ?_⟩⟩
    have hshown : U.withoutEmails text = shownOf U.email.replacement (before ++ (s.map .kept ++ after)) := by
      rw [withoutEmails, PiiRegex.shown, hkept]
    rw [U.withoutEmails_eq hpieces, hearlier, shownOf_append, shownOf_append, shownOf_kept] at hshown
    have hlater := List.append_cancel_left (List.append_cancel_left hshown)
    rw [hearlier, hlater]
    exact U.matches_iff_hidden.2 hmatch

/-- E-mail addresses and phone numbers are all replaced. -/
theorem not_occurs_email (text : Text) : ¬ U.email.Occurs (U.phone.shown (U.withoutEmails text)) := by
  intro hoccurs
  have hbefore := (scan_scans U.phone.nonempty (U.withoutEmails text)).occurs_of_no_boundary U.email_no_boundary
    (bracketed_of_placeholder (U.replacement_mem U.phone_mem))
    (U.visible U.email_mem (U.replacement_mem U.phone_mem)) hoccurs
  have hscan := scan_scans U.email.nonempty (U.withoutCards text)
  obtain ⟨before, s, after, hpieces, hmatch⟩ := hscan.kept_of_occurs U.email_no_boundary
    (bracketed_of_placeholder (U.replacement_mem U.email_mem))
    (U.visible U.email_mem (U.replacement_mem U.email_mem)) hbefore
  rw [hpieces] at hscan
  exact hscan.not_matches U.email.nonempty hmatch

theorem not_occurs_phone (text : Text) : ¬ U.phone.Occurs (U.phone.shown (U.withoutEmails text)) :=
  (scan_scans U.phone.nonempty (U.withoutEmails text)).not_occurs U.phone_digitGroup.bounded
    (bracketed_of_placeholder (U.replacement_mem U.phone_mem))
    (U.visible U.phone_mem (U.replacement_mem U.phone_mem)) U.phone.nonempty

end UnicodeTables

/-! ## What masking leaves -/

theorem PiiMasker.mask_new_default (U : UnicodeTables) (text : Text) (requestId : String) :
    ((PiiMasker.new U.defaultPatterns).mask text requestId).1 = some (U.phone.shown (U.withoutEmails text)) := by
  obtain ⟨new, hmask, -⟩ := maskPatterns_compile U.defaultRegexes text []
  have hpatterns : (PiiMasker.new U.defaultPatterns).patterns = U.defaultRegexes.map PiiRegex.compile := rfl
  rw [PiiMasker.mask, hpatterns, hmask]
  rfl

/-- No default pattern matches anything in a masked text, unless an e-mail address hid it. -/
theorem PiiMasker.mask_complete_iff (U : UnicodeTables) (text : Text) (requestId : String) :
    ∃ masked, ((PiiMasker.new U.defaultPatterns).mask text requestId).1 = some masked
      ∧ ((∀ p ∈ U.defaultRegexes, ¬ p.Occurs masked) ↔ ¬ U.Hidden text) := by
  refine ⟨_, mask_new_default U text requestId, ?_⟩
  rw [← U.occurs_iff_hidden]
  constructor
  · rintro hnone ⟨p, hp, hoccurs⟩
    exact hnone p (U.digitGroup_of_mem hp).2 hoccurs
  · intro hnone p hp hoccurs
    simp only [UnicodeTables.defaultRegexes, List.mem_cons, List.not_mem_nil, or_false] at hp
    rcases hp with rfl | rfl | rfl | rfl
    · exact hnone ⟨_, by simp, hoccurs⟩
    · exact hnone ⟨_, by simp, hoccurs⟩
    · exact U.not_occurs_email text hoccurs
    · exact U.not_occurs_phone text hoccurs

/-- ASCII digits and words alone. -/
def asciiTables : UnicodeTables where
  isDigit := Char.isDigit
  isWord c := c.isAlphanum || c == '_'
  isDigit_ascii _ _ := rfl
  isWord_ascii _ _ := rfl
  isWord_of_isDigit c hc := by simp [Char.isAlphanum, hc]

example : ((PiiMasker.new asciiTables.defaultPatterns).mask "Card: 1234-5678-9012-3456".toList "req3").1
    = some "Card: [CARD]".toList := by
  decide +kernel

theorem PiiMasker.mask_incomplete :
    ¬ ∀ (U : UnicodeTables) (text masked : Text) (requestId : String),
      ((PiiMasker.new U.defaultPatterns).mask text requestId).1 = some masked →
        ∀ p ∈ U.defaultRegexes, ¬ p.Occurs masked := by
  intro hnone
  have hmask : ((PiiMasker.new asciiTables.defaultPatterns).mask "a@b.co123-45-6789".toList "req").1
      = some ("[EMAIL]".toList ++ "123-45-6789".toList) := by
    decide +kernel
  refine hnone _ _ _ _ hmask asciiTables.ssn (by simp [UnicodeTables.defaultRegexes]) ?_
  have hrun : run asciiTables.isWord asciiTables.ssn.pattern (lastOr none "[EMAIL]".toList)
      "123-45-6789".toList = some 11 := by
    decide +kernel
  exact occurs_of_run hrun

end Godwit
