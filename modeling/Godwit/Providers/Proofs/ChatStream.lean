import Godwit.Lib.JsonText
import Godwit.Providers.Proofs.SseLines

set_option autoImplicit false

/-! # Streams that arrive in chunks

The adapters parse each read on its own and keep nothing of a line that the read ends in, so that an event
is lost when the network cuts its line. `cuts_agree_iff` says when the cut does not matter. Whatever the
cut, that is for the streams of which no part of a line holds an event, and so for none that holds one. A
given cut does not matter where the lines that it tears hold no event, neither whole nor in pieces. -/

namespace Godwit

/-! ## Translators of lines -/

/-- What an adapter makes of the events of a stream, one after another. -/
structure EventTranslator (σ : Type) where
  start : σ
  finished : σ → Bool
  translate : σ → SseEvent → EventStream × σ
  finished_start : finished start = false
  /-- What gives nothing at the start gives nothing later, and leaves nothing behind. -/
  silent : ∀ event s, (translate start event).1 = [] → translate s event = ([], s)
  /-- Up to the finish an event gives what it gives at the start. -/
  unfinished : ∀ event s, finished s = false → (translate s event).1 = (translate start event).1
    ∧ finished (translate s event).2 = finished (translate start event).2
  /-- So does, after it, an event that is no finish. -/
  later : ∀ event s, finished (translate start event).2 = false → finished s = true →
    (translate s event).1 = (translate start event).1 ∧ finished (translate s event).2 = true

/-- A translator that takes each event alone. -/
def EventTranslator.each (normalize : SseEvent → EventStream) : EventTranslator Unit where
  start := ()
  finished _ := false
  translate _ event := (normalize event, ())
  finished_start := rfl
  silent _ _ h := Prod.ext h rfl
  unfinished _ _ _ := ⟨rfl, rfl⟩
  later _ _ _ h := absurd h Bool.false_ne_true

section Translator

variable {σ : Type}

/-- What the translator makes of a line. -/
def EventTranslator.readLine (t : EventTranslator σ) (s : σ) (line : Bytes) : EventStream × σ :=
  match lineEvent line with
  | none => ([], s)
  | some event => t.translate s event

/-- The events of a line that is read alone. -/
def EventTranslator.lineEvents (t : EventTranslator σ) (line : Bytes) : EventStream := (t.readLine t.start line).1

/-- Whether a line that is read alone finishes the stream. -/
def EventTranslator.finishes (t : EventTranslator σ) (line : Bytes) : Bool := t.finished (t.readLine t.start line).2

/-- The events of a stream that arrives in chunks. -/
def EventTranslator.stream (t : EventTranslator σ) (chunks : List Bytes) : EventStream :=
  (readAll t.readLine t.start (chunks.flatMap (List.splitOn 0x0A))).1

theorem EventTranslator.readLine_of_none (t : EventTranslator σ) (s : σ) {line : Bytes}
    (hline : lineEvent line = none) : t.readLine s line = ([], s) := by
  rw [EventTranslator.readLine, hline]

theorem EventTranslator.readLine_of_silent (t : EventTranslator σ) (s : σ) {line : Bytes}
    (hline : t.lineEvents line = []) : t.readLine s line = ([], s) := by
  unfold EventTranslator.lineEvents EventTranslator.readLine at hline
  unfold EventTranslator.readLine
  cases hevent : lineEvent line with
  | none => rfl
  | some event =>
      rw [hevent] at hline
      exact t.silent event s hline

theorem EventTranslator.readLine_unfinished (t : EventTranslator σ) {s : σ} (hs : t.finished s = false)
    (line : Bytes) :
    (t.readLine s line).1 = t.lineEvents line ∧ t.finished (t.readLine s line).2 = t.finishes line := by
  unfold EventTranslator.lineEvents EventTranslator.finishes EventTranslator.readLine
  cases lineEvent line with
  | none => exact ⟨rfl, hs.trans t.finished_start.symm⟩
  | some event => exact t.unfinished event s hs

theorem EventTranslator.readLine_finished (t : EventTranslator σ) {s : σ} (hs : t.finished s = true)
    {line : Bytes} (hline : t.finishes line = false) :
    (t.readLine s line).1 = t.lineEvents line ∧ t.finished (t.readLine s line).2 = true := by
  unfold EventTranslator.lineEvents EventTranslator.readLine
  unfold EventTranslator.finishes EventTranslator.readLine at hline
  cases hevent : lineEvent line with
  | none => exact ⟨rfl, hs⟩
  | some event =>
      rw [hevent] at hline
      exact t.later event s hline hs

/-- With one finish at most, the lines give what each gives alone. -/
theorem EventTranslator.readAll_eq (t : EventTranslator σ) (s : σ) {lines : List Bytes}
    (hone : lines.countP t.finishes + (if t.finished s then 1 else 0) ≤ 1) :
    (readAll t.readLine s lines).1 = lines.flatMap t.lineEvents := by
  induction lines generalizing s with
  | nil => rfl
  | cons line lines ih =>
      rw [List.countP_cons] at hone
      by_cases hs : t.finished s = true
      · rw [if_pos hs] at hone
        have hline : t.finishes line = false := by
          by_contra hfinishes
          rw [Bool.not_eq_false] at hfinishes
          rw [if_pos hfinishes] at hone
          omega
        obtain ⟨hevents, hlast⟩ := t.readLine_finished hs hline
        have hrest := ih (t.readLine s line).2 (by rw [if_pos hlast]; omega)
        rw [readAll, List.flatMap_cons, ← hevents, ← hrest]
      · obtain ⟨hevents, hlast⟩ := t.readLine_unfinished (Bool.not_eq_true _ ▸ hs) line
        rw [if_neg hs] at hone
        have hrest := ih (t.readLine s line).2 (by rw [hlast]; omega)
        rw [readAll, List.flatMap_cons, ← hevents, ← hrest]

/-! ## Torn lines -/

/-- Two pieces of the line or more are not white space. -/
def TornLine (pieces : List Bytes) : Prop := 2 ≤ pieces.countP fun piece => ! blankBytes piece

/-- The lines that the chunks tear hold no event, neither whole nor in pieces. -/
def TornSilent (lineEvents : Bytes → EventStream) (chunks : List Bytes) : Prop :=
  ∀ pieces ∈ linePieces 0x0A chunks, TornLine pieces →
    lineEvents pieces.flatten = [] ∧ ∀ piece ∈ pieces, lineEvents piece = []

theorem lineEvent_flatten_of_blank {pieces : List Bytes} (hblank : ∀ piece ∈ pieces, blankBytes piece = true) :
    lineEvent pieces.flatten = none := lineEvent_of_blank (blankBytes_flatten hblank)

/-- A line that is not torn has all it says in one piece. -/
theorem exists_piece_of_not_torn {pieces : List Bytes} (hwhole : ¬ TornLine pieces) :
    (∀ piece ∈ pieces, blankBytes piece = true)
      ∨ ∃ before piece after, pieces = before ++ piece :: after
        ∧ (∀ b ∈ before, blankBytes b = true) ∧ ∀ b ∈ after, blankBytes b = true := by
  by_cases hblank : ∃ piece ∈ pieces, blankBytes piece = false
  · obtain ⟨piece, hmem, hpiece⟩ := hblank
    obtain ⟨before, after, rfl⟩ := List.append_of_mem hmem
    have hcount : (before.countP fun b => ! blankBytes b) + ((after.countP fun b => ! blankBytes b) + 1) < 2 := by
      rwa [TornLine, not_le, List.countP_append, List.countP_cons_of_pos (by simp [hpiece])] at hwhole
    have hall : ∀ l : List Bytes, (l.countP fun b => ! blankBytes b) = 0 → ∀ b ∈ l, blankBytes b = true := by
      intro l hl b hb
      simpa using List.countP_eq_zero.1 hl b hb
    exact .inr ⟨before, piece, after, rfl, hall before (by omega), hall after (by omega)⟩
  · refine .inl fun piece hpiece => ?_
    by_contra hfalse
    exact hblank ⟨piece, hpiece, Bool.not_eq_true _ ▸ hfalse⟩

theorem EventTranslator.readAll_blank (t : EventTranslator σ) (s : σ) {pieces : List Bytes}
    (hblank : ∀ piece ∈ pieces, blankBytes piece = true) : readAll t.readLine s pieces = ([], s) :=
  readAll_silent fun piece hpiece => t.readLine_of_none s (lineEvent_of_blank (hblank piece hpiece))

/-- A line that is not torn is read in its pieces as it is read whole. -/
theorem EventTranslator.readAll_of_not_torn (t : EventTranslator σ) (s : σ) {pieces : List Bytes}
    (hwhole : ¬ TornLine pieces) : readAll t.readLine s pieces = t.readLine s pieces.flatten := by
  rcases exists_piece_of_not_torn hwhole with hblank | ⟨before, piece, after, rfl, hbefore, hafter⟩
  · rw [t.readAll_blank s hblank, t.readLine_of_none s (lineEvent_flatten_of_blank hblank)]
  · have hline : lineEvent (before ++ piece :: after).flatten = lineEvent piece := by
      rw [List.flatten_append, List.flatten_cons, ← List.append_assoc]
      exact lineEvent_blanks (blankBytes_flatten hbefore) (blankBytes_flatten hafter) piece
    have hread : t.readLine s (before ++ piece :: after).flatten = t.readLine s piece := by
      rw [EventTranslator.readLine, hline, EventTranslator.readLine]
    rw [readAll_append, t.readAll_blank s hbefore, hread]
    simp only [readAll, t.readAll_blank _ hafter, List.nil_append, List.append_nil]

theorem EventTranslator.stream_whole (t : EventTranslator σ) (chunks : List Bytes) :
    t.stream [chunks.flatten]
      = (readAll t.readLine t.start ((linePieces 0x0A chunks).map List.flatten)).1 := by
  rw [map_flatten_linePieces, EventTranslator.stream, List.flatMap_singleton]

theorem EventTranslator.stream_pieces (t : EventTranslator σ) (chunks : List Bytes) :
    t.stream chunks = (readAll t.readLine t.start (linePieces 0x0A chunks).flatten).1 := by
  rw [flatten_linePieces, EventTranslator.stream]

theorem EventTranslator.stream_of_tornSilent (t : EventTranslator σ) {chunks : List Bytes}
    (htorn : TornSilent t.lineEvents chunks) : t.stream chunks = t.stream [chunks.flatten] := by
  have hlines : ∀ pieces ∈ linePieces 0x0A chunks, ∀ s,
      readAll t.readLine s pieces = t.readLine s pieces.flatten := by
    intro pieces hmem s
    by_cases hpieces : TornLine pieces
    · obtain ⟨hline, hsilent⟩ := htorn pieces hmem hpieces
      rw [t.readLine_of_silent s hline]
      exact readAll_silent fun piece hpiece => t.readLine_of_silent s (hsilent piece hpiece)
    · exact t.readAll_of_not_torn s hpieces
  rw [t.stream_pieces, t.stream_whole, readAll_pieces t.start hlines]

/-! ## Every cut of a stream -/

/-- One byte at a time, no line holds an event. -/
theorem EventTranslator.readAll_bytes (t : EventTranslator σ) (s : σ) (bytes : Bytes) :
    readAll t.readLine s ((bytes.map fun b => [b]).flatMap (List.splitOn 0x0A)) = ([], s) := by
  refine readAll_silent fun line hline => t.readLine_of_none s (lineEvent_of_length ?_)
  obtain ⟨chunk, hchunk, hline⟩ := List.mem_flatMap.1 hline
  obtain ⟨b, -, rfl⟩ := List.mem_map.1 hchunk
  exact (infix_of_mem_splitOn hline).length_le.trans_lt (show 1 < dataPrefix.length by decide)

theorem flatten_bytes (bytes : Bytes) : (bytes.map fun b => [b]).flatten = bytes := by
  rw [← List.flatMap_def, List.flatMap_singleton']

/-- A part of a line that arrives between bytes that arrive alone. -/
theorem EventTranslator.stream_part (t : EventTranslator σ) (before after : Bytes) {part : Bytes}
    (hpart : 0x0A ∉ part) :
    t.stream ((before.map fun b => [b]) ++ part :: (after.map fun b => [b])) = t.lineEvents part := by
  rw [EventTranslator.stream, List.flatMap_append, List.flatMap_cons, List.splitOn_eq_singleton hpart,
    List.singleton_append, readAll_append, t.readAll_bytes]
  simp only [readAll, t.readAll_bytes, List.nil_append, List.append_nil]
  rfl

theorem EventTranslator.stream_silent (t : EventTranslator σ) {chunks : List Bytes}
    (hparts : ∀ part, part <:+: chunks.flatten → 0x0A ∉ part → t.lineEvents part = []) :
    t.stream chunks = [] := by
  have hlines : ∀ line ∈ chunks.flatMap (List.splitOn 0x0A), t.readLine t.start line = ([], t.start) := by
    intro line hline
    obtain ⟨chunk, hchunk, hline⟩ := List.mem_flatMap.1 hline
    exact t.readLine_of_silent t.start (hparts line
      ((infix_of_mem_splitOn hline).trans (List.infix_of_mem_flatten hchunk)) (not_mem_of_mem_splitOn hline))
  rw [EventTranslator.stream, readAll_silent hlines]

theorem EventTranslator.stream_agrees_iff (t : EventTranslator σ) (stream : Bytes) :
    (∀ chunks : List Bytes, chunks.flatten = stream → t.stream chunks = t.stream [stream])
      ↔ ∀ part, part <:+: stream → 0x0A ∉ part → t.lineEvents part = [] := by
  constructor
  · rintro hagree part ⟨before, after, rfl⟩ hpart
    -- all in single bytes nothing comes, and around the part in single bytes its events come
    have hbytes := hagree _ (flatten_bytes (before ++ part ++ after))
    have hcut := hagree ((before.map fun b => [b]) ++ part :: (after.map fun b => [b])) (by
      rw [List.flatten_append, List.flatten_cons, flatten_bytes, flatten_bytes, List.append_assoc])
    rw [t.stream_part before after hpart, ← hbytes, EventTranslator.stream, t.readAll_bytes] at hcut
    exact hcut
  · rintro hparts chunks rfl
    rw [t.stream_silent hparts, t.stream_silent (by rwa [List.flatten_singleton])]

/-! ## One cut of a stream -/

/-- A cut that changes nothing, and lets no piece of a torn line say what the stream says, is silent. -/
theorem EventTranslator.tornSilent_of_same (t : EventTranslator σ) {chunks : List Bytes}
    (hlines : ((linePieces 0x0A chunks).map List.flatten).countP t.finishes ≤ 1)
    (hpieces : (linePieces 0x0A chunks).flatten.countP t.finishes ≤ 1)
    (hfresh : ∀ pieces ∈ linePieces 0x0A chunks, TornLine pieces → ∀ piece ∈ pieces,
      ∀ event ∈ t.lineEvents piece, event ∉ t.stream [chunks.flatten])
    (hsame : t.stream chunks = t.stream [chunks.flatten]) : TornSilent t.lineEvents chunks := by
  have hstart : ∀ n, n ≤ 1 → n + (if t.finished t.start then 1 else 0) ≤ 1 := by
    intro n hn
    rwa [t.finished_start, if_neg Bool.false_ne_true, Nat.add_zero]
  rw [t.stream_pieces, t.readAll_eq t.start (hstart _ hpieces), t.stream_whole,
    t.readAll_eq t.start (hstart _ hlines)] at hsame
  rw [t.stream_whole, t.readAll_eq t.start (hstart _ hlines)] at hfresh
  refine silent_of_same (fun pieces hmem hkept => ?_) hsame hfresh
  have hone : pieces.countP t.finishes + (if t.finished t.start then 1 else 0) ≤ 1 :=
    hstart _ (((List.sublist_flatten_of_mem hmem).countP_le).trans hpieces)
  rw [← t.readAll_eq t.start hone, t.readAll_of_not_torn t.start hkept]
  rfl

end Translator

/-! ## Translators of single events -/

theorem EventTranslator.stream_each (normalize : SseEvent → EventStream) (chunks : List Bytes) :
    (EventTranslator.each normalize).stream chunks
      = (chunks.flatMap (List.splitOn 0x0A)).flatMap (EventTranslator.each normalize).lineEvents := by
  have hnone : (chunks.flatMap (List.splitOn 0x0A)).countP (EventTranslator.each normalize).finishes = 0 :=
    List.countP_eq_zero.2 fun _ _ => Bool.false_ne_true
  refine (EventTranslator.each normalize).readAll_eq () ?_
  rw [hnone]
  exact Nat.zero_le _

/-! ## The adapters -/

section Serde

variable (serde : StreamSerde)

/-- A candidate of which nothing is emitted. -/
def GeminiCandidate.Silent (candidate : GeminiCandidate) : Prop :=
  candidate.texts = [] ∧ ∀ reason, candidate.finishReason = some reason → reason.isEmpty = true

theorem GeminiStreamTranslator.pushTexts_nil (t : GeminiStreamTranslator) : t.pushTexts serde [] = ([], t) := rfl

theorem GeminiStreamTranslator.pushFinish_silent (t : GeminiStreamTranslator) (usage : Option GeminiUsageMetadata)
    {finishReason : Option String} (hreason : ∀ reason, finishReason = some reason → reason.isEmpty = true) :
    t.pushFinish serde usage finishReason = ([], t) := by
  cases finishReason with
  | none => rfl
  | some reason =>
      unfold GeminiStreamTranslator.pushFinish
      dsimp only
      rw [hreason reason rfl]
      rfl

theorem GeminiStreamTranslator.pushCandidates_silent (t : GeminiStreamTranslator)
    (usage : Option GeminiUsageMetadata) {candidates : List GeminiCandidate}
    (hsilent : ∀ candidate ∈ candidates, candidate.Silent) :
    t.pushCandidates serde usage candidates = ([], t) := by
  induction candidates with
  | nil => rfl
  | cons candidate rest ih =>
      obtain ⟨htexts, hreason⟩ := hsilent candidate List.mem_cons_self
      have hrest := ih fun c hc => hsilent c (List.mem_cons_of_mem _ hc)
      simp only [GeminiStreamTranslator.pushCandidates, htexts, GeminiStreamTranslator.pushTexts_nil,
        t.pushFinish_silent serde usage hreason, hrest, List.append_nil]

/-- Before the finish, what gives nothing is silent. -/
theorem GeminiStreamTranslator.silent_of_pushCandidates (usage : Option GeminiUsageMetadata)
    {t : GeminiStreamTranslator} (ht : t.finishEmitted = false) {candidates : List GeminiCandidate}
    (hnothing : (t.pushCandidates serde usage candidates).1 = []) :
    ∀ candidate ∈ candidates, candidate.Silent := by
  induction candidates with
  | nil => exact fun _ h => absurd h List.not_mem_nil
  | cons candidate rest ih =>
      rw [GeminiStreamTranslator.pushCandidates] at hnothing
      simp only [List.append_eq_nil_iff] at hnothing
      obtain ⟨⟨htexts, hfinish⟩, hrest⟩ := hnothing
      have hempty : candidate.texts = [] := List.map_eq_nil_iff.1 htexts
      rw [hempty, GeminiStreamTranslator.pushTexts_nil] at hfinish hrest
      have hreason : ∀ reason, candidate.finishReason = some reason → reason.isEmpty = true := by
        intro reason hsome
        rw [hsome, GeminiStreamTranslator.pushFinish, ht] at hfinish
        by_contra hne
        rw [Bool.not_eq_true] at hne
        simp [hne] at hfinish
      rw [t.pushFinish_silent serde usage hreason] at hrest
      intro c hc
      rcases List.mem_cons.1 hc with rfl | hc
      · exact ⟨hempty, hreason⟩
      · exact ih hrest c hc

theorem GeminiStreamTranslator.translateChunk_silent (t : GeminiStreamTranslator) {chunk : String}
    (hnothing : (GeminiStreamTranslator.new.translateChunk serde chunk).1 = []) :
    t.translateChunk serde chunk = ([], t) := by
  unfold GeminiStreamTranslator.translateChunk at hnothing ⊢
  by_cases hblank : (trimText chunk).isEmpty = true
  · rw [if_pos hblank]
  · rw [if_neg hblank] at hnothing ⊢
    cases hparse : (serde.json.fromStr chunk).bind decodeGeminiChunk with
    | none =>
        rw [hparse] at hnothing
        exact absurd hnothing (List.cons_ne_nil _ _)
    | some parsed =>
        rw [hparse] at hnothing
        exact t.pushCandidates_silent serde _
          (GeminiStreamTranslator.silent_of_pushCandidates serde _ rfl hnothing)

/-- What a reason to finish gives depends on whether one was emitted. -/
theorem GeminiStreamTranslator.pushFinish_congr (usage : Option GeminiUsageMetadata) {t u : GeminiStreamTranslator}
    (htu : t.finishEmitted = u.finishEmitted) (finishReason : Option String) :
    (t.pushFinish serde usage finishReason).1 = (u.pushFinish serde usage finishReason).1
      ∧ (t.pushFinish serde usage finishReason).2.finishEmitted
        = (u.pushFinish serde usage finishReason).2.finishEmitted := by
  cases finishReason with
  | none => exact ⟨rfl, htu⟩
  | some reason =>
      unfold GeminiStreamTranslator.pushFinish
      dsimp only
      rw [htu]
      split_ifs
      · exact ⟨rfl, rfl⟩
      · exact ⟨rfl, htu⟩

theorem GeminiStreamTranslator.pushFinish_of_finished (usage : Option GeminiUsageMetadata)
    {t : GeminiStreamTranslator} (ht : t.finishEmitted = true) (finishReason : Option String) :
    t.pushFinish serde usage finishReason = ([], t) := by
  cases finishReason with
  | none => rfl
  | some reason =>
      unfold GeminiStreamTranslator.pushFinish
      dsimp only
      rw [ht, if_neg (by simp)]

theorem GeminiStreamTranslator.pushFinish_nil (usage : Option GeminiUsageMetadata) {t : GeminiStreamTranslator}
    {finishReason : Option String} (hno : (t.pushFinish serde usage finishReason).2.finishEmitted = false) :
    (t.pushFinish serde usage finishReason).1 = [] := by
  cases finishReason with
  | none => rfl
  | some reason =>
      unfold GeminiStreamTranslator.pushFinish at hno ⊢
      dsimp only at hno ⊢
      split_ifs at hno ⊢
      rfl

theorem GeminiStreamTranslator.pushCandidates_congr (usage : Option GeminiUsageMetadata)
    {t u : GeminiStreamTranslator} (htu : t.finishEmitted = u.finishEmitted) (candidates : List GeminiCandidate) :
    (t.pushCandidates serde usage candidates).1 = (u.pushCandidates serde usage candidates).1
      ∧ (t.pushCandidates serde usage candidates).2.finishEmitted
        = (u.pushCandidates serde usage candidates).2.finishEmitted := by
  induction candidates generalizing t u with
  | nil => exact ⟨rfl, htu⟩
  | cons candidate rest ih =>
      have hfinish := GeminiStreamTranslator.pushFinish_congr serde usage
        (show (t.pushTexts serde candidate.texts).2.finishEmitted
          = (u.pushTexts serde candidate.texts).2.finishEmitted from htu) candidate.finishReason
      obtain ⟨hevents, hlast⟩ := ih hfinish.2
      simp only [GeminiStreamTranslator.pushCandidates, hevents, hlast, hfinish.1, and_true]
      rfl

theorem GeminiStreamTranslator.pushCandidates_keeps (usage : Option GeminiUsageMetadata)
    {t : GeminiStreamTranslator} (ht : t.finishEmitted = true) (candidates : List GeminiCandidate) :
    (t.pushCandidates serde usage candidates).2.finishEmitted = true := by
  induction candidates generalizing t with
  | nil => exact ht
  | cons candidate rest ih =>
      have htexts : (t.pushTexts serde candidate.texts).2.finishEmitted = true := ht
      rw [GeminiStreamTranslator.pushCandidates, GeminiStreamTranslator.pushFinish_of_finished serde usage htexts]
      exact ih htexts

/-- Candidates without a finish give the same after one. -/
theorem GeminiStreamTranslator.pushCandidates_finished (usage : Option GeminiUsageMetadata)
    {t u : GeminiStreamTranslator} (hu : u.finishEmitted = true) {candidates : List GeminiCandidate}
    (hno : (t.pushCandidates serde usage candidates).2.finishEmitted = false) :
    (u.pushCandidates serde usage candidates).1 = (t.pushCandidates serde usage candidates).1 := by
  induction candidates generalizing t u with
  | nil => rfl
  | cons candidate rest ih =>
      have htexts : (u.pushTexts serde candidate.texts).2.finishEmitted = true := hu
      have hfirst : ((t.pushTexts serde candidate.texts).2.pushFinish serde usage
          candidate.finishReason).2.finishEmitted = false := by
        by_contra hfinish
        rw [Bool.not_eq_false] at hfinish
        exact absurd (GeminiStreamTranslator.pushCandidates_keeps serde usage hfinish rest)
          (Bool.eq_false_iff.1 hno)
      simp only [GeminiStreamTranslator.pushCandidates,
        GeminiStreamTranslator.pushFinish_of_finished serde usage htexts,
        GeminiStreamTranslator.pushFinish_nil serde usage hfirst, ih htexts hno]
      rfl

theorem GeminiStreamTranslator.translateChunk_unfinished (t : GeminiStreamTranslator)
    (ht : t.finishEmitted = false) (chunk : String) :
    (t.translateChunk serde chunk).1 = (GeminiStreamTranslator.new.translateChunk serde chunk).1
      ∧ (t.translateChunk serde chunk).2.finishEmitted
        = (GeminiStreamTranslator.new.translateChunk serde chunk).2.finishEmitted := by
  unfold GeminiStreamTranslator.translateChunk
  split_ifs with hblank
  · exact ⟨rfl, ht⟩
  · cases (serde.json.fromStr chunk).bind decodeGeminiChunk with
    | none => exact ⟨rfl, ht⟩
    | some parsed => exact GeminiStreamTranslator.pushCandidates_congr serde _ ht _

theorem GeminiStreamTranslator.translateChunk_finished (t : GeminiStreamTranslator) {chunk : String}
    (hno : (GeminiStreamTranslator.new.translateChunk serde chunk).2.finishEmitted = false)
    (ht : t.finishEmitted = true) :
    (t.translateChunk serde chunk).1 = (GeminiStreamTranslator.new.translateChunk serde chunk).1
      ∧ (t.translateChunk serde chunk).2.finishEmitted = true := by
  unfold GeminiStreamTranslator.translateChunk at hno ⊢
  split_ifs at hno ⊢ with hblank
  · exact ⟨rfl, ht⟩
  · cases hparse : (serde.json.fromStr chunk).bind decodeGeminiChunk with
    | none => exact ⟨rfl, ht⟩
    | some parsed =>
        rw [hparse] at hno
        exact ⟨GeminiStreamTranslator.pushCandidates_finished serde _ ht hno,
          GeminiStreamTranslator.pushCandidates_keeps serde _ ht _⟩

/-- The translator of Gemini as one that takes events. -/
def geminiTranslator : EventTranslator GeminiStreamTranslator where
  start := .new
  translate t event := t.translateChunk serde event.data
  silent _ t h := t.translateChunk_silent serde h
  finished := GeminiStreamTranslator.finishEmitted
  finished_start := rfl
  unfinished event t h := t.translateChunk_unfinished serde h event.data
  later _ t hno h := t.translateChunk_finished serde hno h

/-- The events of an adapter that keeps no state are those of the lines. -/
theorem flatMap_parseSseEvents (normalize : SseEvent → EventStream) (chunks : List Bytes) :
    ((chunks.map Except.ok : List BodyRead).flatMap fun bytes =>
        (parseSseEvents (readText bytes)).flatMap normalize)
      = (EventTranslator.each normalize).stream chunks := by
  have hline : ∀ line, (EventTranslator.each normalize).lineEvents line
      = (lineEvent line).toList.flatMap normalize := by
    intro line
    unfold EventTranslator.lineEvents EventTranslator.readLine
    cases lineEvent line with
    | none => rfl
    | some event => exact (List.append_nil _).symm
  rw [EventTranslator.stream_each, List.flatMap_map, List.flatMap_assoc]
  refine congrArg chunks.flatMap (funext fun chunk => ?_)
  rw [readText, parseSseEvents_fromUtf8Lossy, funext hline, List.filterMap_eq_flatMap_toList, List.flatMap_assoc]

theorem GeminiStreamTranslator.translateEvents_lines (t : GeminiStreamTranslator) (lines : List Bytes) :
    t.translateEvents serde (lines.filterMap lineEvent) = readAll (geminiTranslator serde).readLine t lines := by
  induction lines generalizing t with
  | nil => rfl
  | cons line lines ih =>
      unfold readAll EventTranslator.readLine
      cases hevent : lineEvent line with
      | none => 
          rw [List.filterMap_cons_none hevent]
          exact ih t
      | some event =>
          rw [List.filterMap_cons_some hevent, GeminiStreamTranslator.translateEvents, ih]
          rfl

theorem GeminiStreamTranslator.translateReads_lines (t : GeminiStreamTranslator) (chunks : List Bytes) :
    t.translateReads serde (chunks.map fromUtf8Lossy)
      = (readAll (geminiTranslator serde).readLine t (chunks.flatMap (List.splitOn 0x0A))).1 := by
  induction chunks generalizing t with
  | nil => rfl
  | cons chunk chunks ih =>
      rw [List.map_cons, GeminiStreamTranslator.translateReads, List.flatMap_cons, readAll_append,
        parseSseEvents_fromUtf8Lossy, t.translateEvents_lines serde]
      exact congrArg _ (ih _)

theorem openaiChatStream_eq (chunks : List Bytes) :
    openaiChatStream serde (chunks.map .ok)
      = (EventTranslator.each (normalizeOpenaiSseEvent serde.json)).stream chunks :=
  flatMap_parseSseEvents _ chunks

theorem anthropicChatStream_eq (chunks : List Bytes) :
    anthropicChatStream serde (chunks.map .ok)
      = (EventTranslator.each (normalizeAnthropicSseEvent serde)).stream chunks :=
  flatMap_parseSseEvents _ chunks

theorem geminiChatStream_eq (chunks : List Bytes) :
    geminiChatStream serde (chunks.map .ok) = (geminiTranslator serde).stream chunks := by
  have hreads : ((chunks.map Except.ok : List BodyRead).filterMap fun read => (read.map fromUtf8Lossy).toOption)
      = chunks.map fromUtf8Lossy := by
    rw [List.filterMap_map, ← List.filterMap_eq_map]
    rfl
  rw [geminiChatStream, hreads, GeminiStreamTranslator.new.translateReads_lines serde]
  rfl

/-- What an adapter makes of an event at the start of a stream. -/
def StreamingAdapter.normalize : StreamingAdapter → SseEvent → EventStream
  | .openai => normalizeOpenaiSseEvent serde.json
  | .anthropic => normalizeAnthropicSseEvent serde
  | .gemini => fun event => (GeminiStreamTranslator.new.translateChunk serde event.data).1

/-- What it makes of a line there. -/
def StreamingAdapter.lineEvents (adapter : StreamingAdapter) (line : Bytes) : EventStream :=
  match lineEvent line with
  | none => []
  | some event => adapter.normalize serde event

/-- The chunks give what they give as one. -/
def StreamingAdapter.Agrees (adapter : StreamingAdapter) (chunks : List Bytes) : Prop :=
  adapter.chatStream serde (chunks.map .ok) = adapter.chatStream serde [.ok chunks.flatten]

/-- Whether a line that is read alone finishes the stream. Only Gemini has a finish that is given once. -/
def StreamingAdapter.finishes (adapter : StreamingAdapter) (line : Bytes) : Bool :=
  match adapter, lineEvent line with
  | .gemini, some event => (GeminiStreamTranslator.new.translateChunk serde event.data).2.finishEmitted
  | _, _ => false

/-- No event that a cut takes away is made up for by another: one line and one piece finishes at most, and no
    piece of a torn line gives, read alone, what the stream gives. -/
structure StreamingAdapter.NoEcho (adapter : StreamingAdapter) (chunks : List Bytes) : Prop where
  lines : ((linePieces 0x0A chunks).map List.flatten).countP (adapter.finishes serde) ≤ 1
  pieces : (linePieces 0x0A chunks).flatten.countP (adapter.finishes serde) ≤ 1
  fresh : ∀ pieces ∈ linePieces 0x0A chunks, TornLine pieces → ∀ piece ∈ pieces,
    ∀ event ∈ adapter.lineEvents serde piece, event ∉ adapter.chatStream serde [.ok chunks.flatten]

/-- What the translator of each remembers. -/
def StreamingAdapter.State : StreamingAdapter → Type
  | .openai => Unit
  | .anthropic => Unit
  | .gemini => GeminiStreamTranslator

/-- The translator of each. -/
def StreamingAdapter.translator : (adapter : StreamingAdapter) → EventTranslator adapter.State
  | .openai => .each (normalizeOpenaiSseEvent serde.json)
  | .anthropic => .each (normalizeAnthropicSseEvent serde)
  | .gemini => geminiTranslator serde

theorem StreamingAdapter.chatStream_eq (adapter : StreamingAdapter) (chunks : List Bytes) :
    adapter.chatStream serde (chunks.map .ok) = (adapter.translator serde).stream chunks := by
  cases adapter with
  | openai => exact openaiChatStream_eq serde chunks
  | anthropic => exact anthropicChatStream_eq serde chunks
  | gemini => exact geminiChatStream_eq serde chunks

theorem StreamingAdapter.lineEvents_eq (adapter : StreamingAdapter) :
    adapter.lineEvents serde = (adapter.translator serde).lineEvents := by
  funext line
  unfold StreamingAdapter.lineEvents EventTranslator.lineEvents EventTranslator.readLine
  cases lineEvent line with
  | none => rfl
  | some event => cases adapter <;> rfl

theorem StreamingAdapter.finishes_eq (adapter : StreamingAdapter) :
    adapter.finishes serde = (adapter.translator serde).finishes := by
  funext line
  unfold StreamingAdapter.finishes EventTranslator.finishes EventTranslator.readLine
  cases adapter with
  | openai => cases lineEvent line <;> rfl
  | anthropic => cases lineEvent line <;> rfl
  | gemini =>
      cases lineEvent line with
      | none => rfl
      | some event => simp only [StreamingAdapter.translator, geminiTranslator]

theorem StreamingAdapter.agrees_eq (adapter : StreamingAdapter) (chunks : List Bytes) :
    adapter.Agrees serde chunks
      ↔ (adapter.translator serde).stream chunks = (adapter.translator serde).stream [chunks.flatten] := by
  rw [StreamingAdapter.Agrees, ← adapter.chatStream_eq serde, ← adapter.chatStream_eq serde]
  rfl

theorem StreamingAdapter.tornSilent_of_agrees {adapter : StreamingAdapter} {chunks : List Bytes}
    (hecho : adapter.NoEcho serde chunks) (hagrees : adapter.Agrees serde chunks) :
    TornSilent (adapter.lineEvents serde) chunks := by
  obtain ⟨hlines, hpieces, hfresh⟩ := hecho
  have hwhole : adapter.chatStream serde [.ok chunks.flatten]
      = (adapter.translator serde).stream [chunks.flatten] :=
    adapter.chatStream_eq serde [chunks.flatten]
  rw [adapter.finishes_eq serde] at hlines hpieces
  rw [hwhole, adapter.lineEvents_eq serde] at hfresh
  rw [adapter.lineEvents_eq serde]
  exact (adapter.translator serde).tornSilent_of_same hlines hpieces hfresh
    ((adapter.agrees_eq serde chunks).1 hagrees)

theorem StreamingAdapter.agrees_of_tornSilent {adapter : StreamingAdapter} {chunks : List Bytes}
    (htorn : TornSilent (adapter.lineEvents serde) chunks) : adapter.Agrees serde chunks := by
  rw [adapter.lineEvents_eq serde] at htorn
  exact (adapter.agrees_eq serde chunks).2 ((adapter.translator serde).stream_of_tornSilent htorn)

/-- A stream gives the same events however it is cut exactly when no part of a line of it holds an event. One
    cut gives the same where the lines that it tears hold no event, whole or in pieces, and only there unless
    what is lost is made up for. -/
theorem StreamingAdapter.agrees_iff (adapter : StreamingAdapter) :
    (∀ stream : Bytes, (∀ chunks : List Bytes, chunks.flatten = stream → adapter.Agrees serde chunks)
        ↔ ∀ part, part <:+: stream → 0x0A ∉ part → adapter.lineEvents serde part = [])
      ∧ ∀ chunks : List Bytes,
        (TornSilent (adapter.lineEvents serde) chunks → adapter.Agrees serde chunks)
          ∧ (adapter.NoEcho serde chunks →
            (adapter.Agrees serde chunks ↔ TornSilent (adapter.lineEvents serde) chunks)) := by
  refine ⟨fun stream => ?_, fun chunks => ⟨StreamingAdapter.agrees_of_tornSilent serde, fun hecho => ?_⟩⟩
  · rw [adapter.lineEvents_eq serde, ← (adapter.translator serde).stream_agrees_iff stream]
    constructor
    · rintro hall chunks rfl
      exact (adapter.agrees_eq serde chunks).1 (hall chunks rfl)
    · rintro hall chunks rfl
      exact (adapter.agrees_eq serde chunks).2 (hall chunks rfl)
  · exact ⟨StreamingAdapter.tornSilent_of_agrees serde hecho, StreamingAdapter.agrees_of_tornSilent serde⟩

end Serde

/-! ## A line that is cut -/

/-- A stream with one text, and a cut inside of its line. -/
def helloStream : Bytes :=
  ("data: \x7b\"choices\":[\x7b\"index\":0,\"delta\":\x7b\"content\":\"Hello\"\x7d,"
    ++ "\"finish_reason\":null\x7d]\x7d\n\n").toList.flatMap String.utf8EncodeChar

/-- A reader with a text for its errors. -/
def helloSerde : StreamSerde := ⟨jsonText, fun _ => "expected value", fun _ => "expected value"⟩

theorem StreamingAdapter.openai_torn :
    [helloStream.take 40, helloStream.drop 40].flatten = helloStream
      ∧ ¬ StreamingAdapter.openai.Agrees helloSerde [helloStream.take 40, helloStream.drop 40] := by
  have hflatten : [helloStream.take 40, helloStream.drop 40].flatten = helloStream := by
    rw [List.flatten_cons, List.flatten_singleton, List.take_append_drop]
  obtain ⟨htorn, hwhole⟩ :
      (StreamingAdapter.openai.chatStream helloSerde [.ok (helloStream.take 40), .ok (helloStream.drop 40)]).length = 0
        ∧ (StreamingAdapter.openai.chatStream helloSerde [.ok helloStream]).length = 1 := by
    decide +kernel
  refine ⟨hflatten, fun hagrees => ?_⟩
  rw [StreamingAdapter.Agrees, hflatten] at hagrees
  have hlengths := congrArg List.length hagrees
  rw [hwhole] at hlengths
  exact absurd (htorn.symm.trans hlengths) Nat.zero_ne_one

end Godwit
