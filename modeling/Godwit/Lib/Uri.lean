import Godwit.Lib.Utf8
import Godwit.Lib.JsonText
import Godwit.Lib.Pieces

set_option autoImplicit false

/-! # URLs

A URL is taken apart at its delimiters, and the dot segments of its path are removed. A path that is put together
from a base and more segments comes out as it was put together exactly when nothing in the segments is a
delimiter, a dot segment or an escape: taking apart and removing only shorten a path (`removeDots_sublist`), and
an escape is longer than what it stands for (`percentDecode_cases`). -/

namespace Godwit

/-! ## Taking a URL apart -/

/-- The five components of a reference. -/
structure Uri where
  scheme : Option (List Char)
  authority : Option (List Char)
  path : List Char
  query : Option (List Char)
  fragment : Option (List Char)

/-- A symbol that does not end a scheme. -/
def schemeChar (c : Char) : Bool := c != ':' && c != '/' && c != '?' && c != '#'

/-- A symbol that does not end an authority. -/
def authorityChar (c : Char) : Bool := c != '/' && c != '?' && c != '#'

/-- A symbol that does not end a path. -/
def pathChar (c : Char) : Bool := c != '?' && c != '#'

/-- The text before the first colon, unless another delimiter comes first. -/
def splitScheme (text : List Char) : Option (List Char) × List Char :=
  match text.takeWhile schemeChar, text.dropWhile schemeChar with
  | first :: scheme, ':' :: rest => (some (first :: scheme), rest)
  | _, _ => (none, text)

/-- The text after two slashes. -/
def splitAuthority : List Char → Option (List Char) × List Char
  | '/' :: '/' :: rest => (some (rest.takeWhile authorityChar), rest.dropWhile authorityChar)
  | text => (none, text)

/-- The text after a question mark. -/
def splitQuery : List Char → Option (List Char) × List Char
  | '?' :: rest => (some (rest.takeWhile (· != '#')), rest.dropWhile (· != '#'))
  | text => (none, text)

/-- The text after a hash. -/
def splitFragment : List Char → Option (List Char)
  | '#' :: fragment => some fragment
  | _ => none

/-- The components of a text. -/
def parseUri (text : List Char) : Uri :=
  let (scheme, rest) := splitScheme text
  let (authority, rest) := splitAuthority rest
  let (query, last) := splitQuery (rest.dropWhile pathChar)
  ⟨scheme, authority, rest.takeWhile pathChar, query, splitFragment last⟩

/-- A URL with an authority and a path after it. -/
theorem parseUri_absolute {scheme authority path : List Char} (hscheme : scheme.all schemeChar = true)
    (hne : scheme ≠ []) (hauthority : authority.all authorityChar = true) (hpath : path.head? = some '/') :
    (parseUri (scheme ++ ':' :: '/' :: '/' :: (authority ++ path))).authority = some authority
      ∧ (parseUri (scheme ++ ':' :: '/' :: '/' :: (authority ++ path))).path = path.takeWhile pathChar
      ∧ (path.all pathChar = true →
        (parseUri (scheme ++ ':' :: '/' :: '/' :: (authority ++ path))).query = none
          ∧ (parseUri (scheme ++ ':' :: '/' :: '/' :: (authority ++ path))).fragment = none) := by
  obtain ⟨first, more, rfl⟩ := List.exists_cons_of_ne_nil hne
  obtain ⟨rest, rfl⟩ : ∃ rest, path = '/' :: rest := by
    cases path with
    | nil => exact absurd hpath (by simp)
    | cons c rest => exact ⟨rest, by rw [Option.some_inj.1 hpath]⟩
  -- the colon ends the scheme, and the slash the authority
  have hstop : ∀ rest : List Char, (':' :: rest).takeWhile schemeChar = [] ∧
      (':' :: rest).dropWhile schemeChar = ':' :: rest := fun rest => ⟨rfl, rfl⟩
  have hsplitScheme : splitScheme (first :: more ++ ':' :: '/' :: '/' :: (authority ++ '/' :: rest))
      = (some (first :: more), '/' :: '/' :: (authority ++ '/' :: rest)) := by
    rw [splitScheme, List.takeWhile_append_of_pos (List.all_eq_true.1 hscheme),
      List.dropWhile_append_of_pos (List.all_eq_true.1 hscheme), (hstop _).1, (hstop _).2, List.append_nil]
    rfl
  have hsplitAuthority : splitAuthority ('/' :: '/' :: (authority ++ '/' :: rest))
      = (some authority, '/' :: rest) := by
    have hslash : ('/' :: rest).takeWhile authorityChar = []
        ∧ ('/' :: rest).dropWhile authorityChar = '/' :: rest :=
      ⟨rfl, rfl⟩
    rw [splitAuthority, List.takeWhile_append_of_pos (List.all_eq_true.1 hauthority),
      List.dropWhile_append_of_pos (List.all_eq_true.1 hauthority), hslash.1, hslash.2, List.append_nil]
  rw [parseUri, hsplitScheme]
  dsimp only
  rw [hsplitAuthority]
  refine ⟨rfl, rfl, fun hall => ?_⟩
  have hnothing : ('/' :: rest).dropWhile pathChar = [] := List.dropWhile_eq_nil_iff.2 (List.all_eq_true.1 hall)
  dsimp only
  rw [hnothing]
  exact ⟨rfl, rfl⟩

/-! ## Dot segments -/

/-- The segments of a path, each with the slash before it. -/
def pathOf (segments : List (List Char)) : List Char := segments.flatMap ('/' :: ·)

/-- The segments of a path that starts with a slash. -/
def pathSegments (path : List Char) : List (List Char) := path.tail.splitOn '/'

/-- A segment that names the same or the parent directory. -/
def isDotSegment (segment : List Char) : Bool := segment == ['.'] || segment == ['.', '.']

/-- What is put out so far, and the segments that are left. A dot segment at the end leaves a slash. -/
def removeDotSegments : List (List Char) → List (List Char) → List (List Char)
  | out, [] => out
  | out, [last] =>
    if last = ['.'] then out ++ [[]] else if last = ['.', '.'] then out.dropLast ++ [[]] else out ++ [last]
  | out, segment :: next :: rest =>
    if segment = ['.'] then removeDotSegments out (next :: rest)
    else if segment = ['.', '.'] then removeDotSegments out.dropLast (next :: rest)
    else removeDotSegments (out ++ [segment]) (next :: rest)

/-- The path without such segments. -/
def removeDots (path : List Char) : List Char := pathOf (removeDotSegments [] (pathSegments path))

theorem pathOf_append (segments more : List (List Char)) :
    pathOf (segments ++ more) = pathOf segments ++ pathOf more :=
  List.flatMap_append

theorem pathOf_cons (segment : List Char) (rest : List (List Char)) :
    pathOf (segment :: rest) = '/' :: segment ++ pathOf rest := rfl

/-- A path is put together again from its segments. -/
theorem pathOf_pathSegments {path : List Char} (hpath : path.head? = some '/') :
    pathOf (pathSegments path) = path := by
  have hsplit : ∀ rest : List Char, pathOf (rest.splitOn '/') = '/' :: rest := by
    intro rest
    induction rest using lines_induction '/' with
    | last line hline => rw [List.splitOn_eq_singleton hline, pathOf_cons, pathOf,
        List.flatMap_nil, List.append_nil]
    | step line rest hline ih =>
        rw [List.splitOn_append_cons_self, List.splitOn_eq_singleton hline, pathOf_append, ih, pathOf_cons, pathOf,
          List.flatMap_nil, List.append_nil, List.cons_append]
  cases path with
  | nil => exact absurd hpath (by simp)
  | cons c rest =>
      obtain rfl : c = '/' := Option.some_inj.1 hpath
      exact hsplit rest

theorem pathOf_dropLast_sublist (segments : List (List Char)) :
    (pathOf segments.dropLast).Sublist (pathOf segments) :=
  (List.dropLast_sublist segments).flatMap _

/-- Removing dot segments takes characters away and does not move any. -/
theorem removeDotSegments_sublist (out segments : List (List Char)) :
    (pathOf (removeDotSegments out segments)).Sublist (pathOf (out ++ segments)) := by
  have hdrop := pathOf_dropLast_sublist
  induction out, segments using removeDotSegments.induct with
  | case1 out => rw [removeDotSegments, List.append_nil]
  | case2 out =>
      rw [removeDotSegments, if_pos rfl, pathOf_append, pathOf_append]
      exact (List.Sublist.refl _).append (by decide)
  | case3 out =>
      rw [removeDotSegments, if_neg (by decide), if_pos rfl, pathOf_append, pathOf_append]
      exact (hdrop out).append (by decide)
  | case4 out last hdot hdots => rw [removeDotSegments, if_neg hdot, if_neg hdots]
  | case5 out next rest ih =>
      rw [removeDotSegments, if_pos rfl]
      refine ih.trans ?_
      rw [pathOf_append, pathOf_append, pathOf_cons ['.']]
      exact (List.Sublist.refl _).append (List.sublist_append_right _ _)
  | case6 out next rest _ ih =>
      rw [removeDotSegments, if_neg (by decide), if_pos rfl]
      refine ih.trans ?_
      rw [pathOf_append, pathOf_append, pathOf_cons ['.', '.']]
      exact (hdrop out).append (List.sublist_append_right _ _)
  | case7 out segment next rest hdot hdots ih =>
      rw [removeDotSegments, if_neg hdot, if_neg hdots]
      rwa [List.append_assoc, List.singleton_append] at ih

/-- A path without dot segments stays. -/
theorem removeDotSegments_eq {out segments : List (List Char)}
    (h : ∀ segment ∈ segments, isDotSegment segment = false) :
    removeDotSegments out segments = out ++ segments := by
  have hplain {segment : List Char} (hs : isDotSegment segment = false) :
      segment ≠ ['.'] ∧ segment ≠ ['.', '.'] := by
    simpa [isDotSegment] using hs
  induction segments generalizing out with
  | nil => rw [removeDotSegments, List.append_nil]
  | cons segment rest ih =>
      obtain ⟨hdot, hdots⟩ := hplain (h segment List.mem_cons_self)
      cases rest with
      | nil => rw [removeDotSegments, if_neg hdot, if_neg hdots]
      | cons next rest =>
          rw [removeDotSegments, if_neg hdot, if_neg hdots, ih fun s hs => h s (List.mem_cons_of_mem _ hs),
            List.append_assoc, List.singleton_append]

/-- A path with a dot segment gets shorter. -/
theorem length_removeDotSegments_lt {out segments : List (List Char)} {dots : List Char} (hmem : dots ∈ segments)
    (hdots : isDotSegment dots = true) :
    (pathOf (removeDotSegments out segments)).length < (pathOf (out ++ segments)).length := by
  -- without a dot segment the length stays at most, so the one that is found decides
  have hdrop (out : List (List Char)) := (pathOf_dropLast_sublist out).length_le
  have hle (out segments : List (List Char)) := (removeDotSegments_sublist out segments).length_le
  induction out, segments using removeDotSegments.induct with
  | case1 out => exact absurd hmem List.not_mem_nil
  | case2 out =>
      rw [removeDotSegments, if_pos rfl]
      simp [pathOf]
  | case3 out =>
      have := hdrop out
      rw [removeDotSegments, if_neg (by decide), if_pos rfl]
      simp [pathOf] at this ⊢
      omega
  | case4 out last hdot hdots' =>
      rw [List.mem_singleton.1 hmem] at hdots
      simp [isDotSegment, hdot, hdots'] at hdots
  | case5 out next rest ih =>
      have := hle out (next :: rest)
      rw [removeDotSegments, if_pos rfl]
      simp only [pathOf_append, pathOf_cons ['.'], List.length_append, List.length_cons] at this ⊢
      omega
  | case6 out next rest ih =>
      have := hle out.dropLast (next :: rest)
      have := hdrop out
      rw [removeDotSegments, if_neg (by decide), if_pos rfl]
      simp only [pathOf_append, pathOf_cons ['.', '.'], List.length_append, List.length_cons] at *
      omega
  | case7 out segment next rest hdot hdots' ih =>
      have hlater : dots ∈ next :: rest := by
        rcases List.mem_cons.1 hmem with rfl | hmem
        · simp [isDotSegment, hdot, hdots'] at hdots
        · exact hmem
      have hrest := ih hlater
      rw [removeDotSegments, if_neg hdot, if_neg hdots']
      rwa [List.append_assoc, List.singleton_append] at hrest

theorem removeDots_sublist {path : List Char} (hpath : path.head? = some '/') : (removeDots path).Sublist path := by
  have hsub := removeDotSegments_sublist [] (pathSegments path)
  rwa [List.nil_append, pathOf_pathSegments hpath] at hsub

theorem pathSegments_pathOf {segments : List (List Char)} (hne : segments ≠ [])
    (h : ∀ segment ∈ segments, '/' ∉ segment) : pathSegments (pathOf segments) = segments := by
  induction segments with
  | nil => exact absurd rfl hne
  | cons segment rest ih =>
      have hsegment := h segment List.mem_cons_self
      cases rest with
      | nil =>
          rw [pathSegments, pathOf_cons, pathOf, List.flatMap_nil, List.append_nil, List.tail_cons,
            List.splitOn_eq_singleton hsegment]
      | cons next rest =>
          have hrest := ih (List.cons_ne_nil _ _) fun s hs => h s (List.mem_cons_of_mem _ hs)
          have hpath : pathOf (next :: rest) = '/' :: (pathOf (next :: rest)).tail := rfl
          rw [pathSegments] at hrest ⊢
          rw [pathOf_cons, hpath, List.cons_append, List.tail_cons, List.splitOn_append_cons_self,
            List.splitOn_eq_singleton hsegment, hrest, List.singleton_append]

/-! ## Escapes -/

/-- The bytes that a text with escapes stands for. -/
def percentDecode : List Char → List UInt8
  | '%' :: a :: b :: rest =>
    match hexValue a, hexValue b with
    | some high, some low => UInt8.ofNat (16 * high + low) :: percentDecode rest
    | _, _ => String.utf8EncodeChar '%' ++ percentDecode (a :: b :: rest)
  | c :: rest => String.utf8EncodeChar c ++ percentDecode rest
  | [] => []

/-- The text has a percent sign with two hexadecimal digits. -/
def hasEscape : List Char → Bool
  | '%' :: a :: b :: rest => ((hexValue a).isSome && (hexValue b).isSome) || hasEscape (a :: b :: rest)
  | _ :: rest => hasEscape rest
  | [] => false

/-- A text without escapes stands for its own bytes, and one with escapes for fewer. -/
theorem percentDecode_cases (text : List Char) :
    (hasEscape text = false → percentDecode text = text.flatMap String.utf8EncodeChar)
      ∧ (percentDecode text).length ≤ (text.flatMap String.utf8EncodeChar).length
      ∧ (hasEscape text = true → (percentDecode text).length < (text.flatMap String.utf8EncodeChar).length) := by
  have hpositive (c : Char) : 0 < (String.utf8EncodeChar c).length :=
    List.length_pos_iff.2 String.utf8EncodeChar_ne_nil
  -- a character that is kept adds the same to both sides
  have hkeep (c : Char) {text : List Char} {decoded : List UInt8}
      (h : (hasEscape text = false → decoded = text.flatMap String.utf8EncodeChar)
        ∧ decoded.length ≤ (text.flatMap String.utf8EncodeChar).length
        ∧ (hasEscape text = true → decoded.length < (text.flatMap String.utf8EncodeChar).length)) :
      (hasEscape text = false →
          String.utf8EncodeChar c ++ decoded = (c :: text).flatMap String.utf8EncodeChar)
        ∧ (String.utf8EncodeChar c ++ decoded).length ≤ ((c :: text).flatMap String.utf8EncodeChar).length
        ∧ (hasEscape text = true →
          (String.utf8EncodeChar c ++ decoded).length < ((c :: text).flatMap String.utf8EncodeChar).length) := by
    obtain ⟨hsame, hle, hlt⟩ := h
    rw [List.flatMap_cons, List.length_append, List.length_append]
    exact ⟨fun hescape => by rw [hsame hescape], by omega, fun hescape => by have := hlt hescape; omega⟩
  induction text using percentDecode.induct with
  | case1 a b rest high low ha hb ih =>
      have hescape : hasEscape ('%' :: a :: b :: rest) = true := by simp [hasEscape, ha, hb]
      have hlength := ih.2.1
      have := hpositive '%'
      have := hpositive a
      have := hpositive b
      rw [percentDecode, ha, hb, hescape]
      simp only [List.flatMap_cons, List.length_append, List.length_cons]
      exact ⟨fun h => absurd h (by simp), by omega, fun _ => by omega⟩
  | case2 a b rest h ih =>
      have hnone : ((hexValue a).isSome && (hexValue b).isSome) = false := by
        cases ha : hexValue a with
        | none => rfl
        | some high =>
            cases hb : hexValue b with
            | none => rfl
            | some low => exact absurd hb (h high low ha)
      have hescape : hasEscape ('%' :: a :: b :: rest) = hasEscape (a :: b :: rest) := by
        rw [hasEscape, hnone, Bool.false_or]
      have hdecode : percentDecode ('%' :: a :: b :: rest)
          = String.utf8EncodeChar '%' ++ percentDecode (a :: b :: rest) := by
        rw [percentDecode]
        split
        · rename_i high low ha hb
          simp [ha, hb] at hnone
        · rfl
      rw [hdecode, hescape]
      exact hkeep '%' ih
  | case3 c rest h ih =>
      rw [percentDecode, hasEscape]
      · exact hkeep c ih
      · exact h
      · exact h
  | case4 => exact ⟨fun _ => rfl, Nat.le_refl _, fun h => absurd h (by decide)⟩

/-! ## A segment that is put into a path -/

/-- Nothing in the text is a delimiter or an escape, and the text is no dot segment. -/
def PlainSegment (text : List Char) : Prop :=
  '/' ∉ text ∧ text.all pathChar = true ∧ isDotSegment text = false ∧ hasEscape text = false

instance (text : List Char) : Decidable (PlainSegment text) := inferInstanceAs (Decidable (_ ∧ _))

/-- Segments that can stand in a path. -/
def CleanSegments (segments : List (List Char)) : Prop :=
  ∀ segment ∈ segments, '/' ∉ segment ∧ segment.all pathChar = true ∧ isDotSegment segment = false

theorem CleanSegments.pathChars {segments : List (List Char)} (h : CleanSegments segments) :
    (pathOf segments).all pathChar = true := by
  rw [pathOf, List.all_flatMap]
  refine List.all_eq_true.2 fun segment hsegment => ?_
  rw [List.all_cons, (h segment hsegment).2.1]
  rfl

theorem CleanSegments.splice {before after : List (List Char)} (hbefore : CleanSegments before)
    (hafter : CleanSegments after) {text : List Char} (htext : PlainSegment text) :
    CleanSegments (before ++ text :: after) := by
  intro segment hmem
  rcases List.mem_append.1 hmem with hmem | hmem
  · exact hbefore segment hmem
  · rcases List.mem_cons.1 hmem with rfl | hmem
    · exact ⟨htext.1, htext.2.1, htext.2.2.1⟩
    · exact hafter segment hmem

theorem utf8_injective {text text' : List Char}
    (h : text.flatMap String.utf8EncodeChar = text'.flatMap String.utf8EncodeChar) : text = text' := by
  rw [← decodeLossy_utf8 text, h, decodeLossy_utf8]

theorem hasEscape_of_decode {text : List Char} (h : percentDecode text = text.flatMap String.utf8EncodeChar) :
    hasEscape text = false := by
  refine Bool.eq_false_iff.2 fun hescape => ?_
  have hshorter := (percentDecode_cases text).2.2 hescape
  rw [h] at hshorter
  exact absurd hshorter (Nat.lt_irrefl _)

/-- A path that is left as it is has no dot segments. -/
theorem not_isDotSegment_of_removeDots {segments : List (List Char)} (hslashes : ∀ segment ∈ segments, '/' ∉ segment)
    (hsame : removeDots (pathOf segments) = pathOf segments) :
    ∀ segment ∈ segments, isDotSegment segment = false := by
  intro segment hmem
  refine Bool.eq_false_iff.2 fun hdots => ?_
  have hshorter : (pathOf (removeDotSegments [] segments)).length < (pathOf ([] ++ segments)).length :=
    length_removeDotSegments_lt hmem hdots
  rw [removeDots, pathSegments_pathOf (List.ne_nil_of_mem hmem) hslashes] at hsame
  rw [hsame, List.nil_append] at hshorter
  exact absurd hshorter (Nat.lt_irrefl _)

theorem removeDots_takeWhile_sublist {path : List Char} (hpath : path.head? = some '/') :
    (removeDots (path.takeWhile pathChar)).Sublist (path.takeWhile pathChar) := by
  cases path with
  | nil => exact absurd hpath (by simp)
  | cons c rest =>
      obtain rfl : c = '/' := Option.some_inj.1 hpath
      exact removeDots_sublist rfl

/-- A text between two parts of a path that comes out as a segment for the same bytes: all of the path was read,
    nothing was removed from it, and the segment is the text. -/
theorem whole_of_spliced {before after : List (List Char)} {segment text : List Char}
    (hhead : (pathOf (before ++ text :: after)).head? = some '/')
    (hdecode : percentDecode segment = text.flatMap String.utf8EncodeChar)
    (hremoved : removeDots ((pathOf (before ++ text :: after)).takeWhile pathChar)
      = pathOf (before ++ segment :: after)) :
    segment = text ∧ (pathOf (before ++ text :: after)).all pathChar = true
      ∧ removeDots (pathOf (before ++ text :: after)) = pathOf (before ++ text :: after) := by
  have hkept := removeDots_takeWhile_sublist hhead
  have htaken := List.takeWhile_sublist (l := pathOf (before ++ text :: after)) pathChar
  -- a segment is no shorter than the bytes it stands for, so the path comes out no shorter than it was
  have hlonger : ((pathOf (before ++ text :: after)).flatMap String.utf8EncodeChar).length
      ≤ ((removeDots ((pathOf (before ++ text :: after)).takeWhile pathChar)).flatMap
        String.utf8EncodeChar).length := by
    have hle := (percentDecode_cases segment).2.1
    rw [hdecode] at hle
    rw [hremoved, pathOf_append, pathOf_append, pathOf_cons, pathOf_cons]
    simp only [List.flatMap_append, List.flatMap_cons, List.length_append]
    omega
  have hsame : removeDots ((pathOf (before ++ text :: after)).takeWhile pathChar)
      = pathOf (before ++ text :: after) :=
    utf8_injective (((hkept.trans htaken).flatMap _).eq_of_length_le hlonger)
  have hlength := hkept.length_le
  rw [hsame] at hlength
  have hwhole := htaken.eq_of_length_le hlength
  refine ⟨?_, List.all_eq_true.2 (List.takeWhile_eq_self_iff.1 hwhole), by rwa [hwhole] at hsame⟩
  rw [hsame, pathOf_append, pathOf_append, pathOf_cons, pathOf_cons] at hremoved
  have hcancel := List.append_cancel_right (List.append_cancel_left hremoved)
  exact (List.cons.inj hcancel).2.symm

/-- A text between clean segments is one segment of the path, which stands for the text, exactly when it is
    plain. -/
theorem spliced_iff {before after : List (List Char)} (hbefore : CleanSegments before)
    (hafter : CleanSegments after) (text : List Char) :
    (∃ segment, '/' ∉ segment ∧ percentDecode segment = text.flatMap String.utf8EncodeChar
        ∧ removeDots ((pathOf (before ++ text :: after)).takeWhile pathChar) = pathOf (before ++ segment :: after))
      ↔ PlainSegment text := by
  constructor
  · rintro ⟨segment, hsegment, hdecode, hremoved⟩
    have hhead : (pathOf (before ++ text :: after)).head? = some '/' := by cases before <;> rfl
    obtain ⟨rfl, hchars, hsame⟩ := whole_of_spliced hhead hdecode hremoved
    have hslashes : ∀ s ∈ before ++ segment :: after, '/' ∉ s := by
      intro s hs
      rcases List.mem_append.1 hs with hs | hs
      · exact (hbefore s hs).1
      · rcases List.mem_cons.1 hs with rfl | hs
        · exact hsegment
        · exact (hafter s hs).1
    refine ⟨hsegment, ?_, ?_, hasEscape_of_decode hdecode⟩
    · rw [pathOf_append, pathOf_cons, List.all_append, List.all_append, Bool.and_eq_true,
        Bool.and_eq_true, List.all_cons, Bool.and_eq_true] at hchars
      exact hchars.2.1.2
    · exact not_isDotSegment_of_removeDots hslashes hsame segment (List.mem_append_right _ List.mem_cons_self)
  · intro htext
    have hclean := hbefore.splice hafter htext
    have hwhole : (pathOf (before ++ text :: after)).takeWhile pathChar = pathOf (before ++ text :: after) :=
      List.takeWhile_eq_self_iff.2 (List.all_eq_true.1 hclean.pathChars)
    refine ⟨text, htext.1, (percentDecode_cases text).1 htext.2.2.2, ?_⟩
    rw [hwhole, removeDots, pathSegments_pathOf (by simp) fun s hs => (hclean s hs).1,
      removeDotSegments_eq fun s hs => (hclean s hs).2.2, List.nil_append]

end Godwit
