import Godwit.Api.Response
import Godwit.Providers.Proofs.SseEgress
import Godwit.Providers.Proofs.SseLines

set_option autoImplicit false

/-! # What a client decodes from a stream

`parse_sse_events` takes one `data: ` off each line. A frame of `OpenAiStreamTranslator` carries a `data: `
of its own, and axum writes another one before it, so no frame is decoded to its payload: a stream comes
back exactly when there is none (`openai_body_decodes_iff`). -/

namespace Godwit

/-! ## Frames inside events -/

/-- The event of a line that starts with two prefixes still has the second one. -/
theorem sseLine_twice (text : List Char) :
    sseLine (dataPrefix ++ (dataPrefix ++ text)) = some ⟨String.ofList (trimEnd (dataPrefix ++ text))⟩ := by
  have hcolon : trimEnd (dataPrefix ++ text) = ['d', 'a', 't', 'a'] ++ ':' :: trimEnd (' ' :: text) :=
    trimEnd_append_cons (by decide) ['d', 'a', 't', 'a'] (' ' :: text)
  have htrim : trimChars (dataPrefix ++ (dataPrefix ++ text)) = dataPrefix ++ trimEnd (dataPrefix ++ text) := by
    have hd : isWhitespace 'd' = false := by decide
    exact (trimChars_cons hd _).trans (congrArg (List.cons 'd')
      (trimEnd_append_cons hd ['a', 't', 'a', ':', ' '] (['a', 't', 'a', ':', ' '] ++ text) |>.trans
        (congrArg (['a', 't', 'a', ':', ' '] ++ ·)
          (trimEnd_append_cons hd [] (['a', 't', 'a', ':', ' '] ++ text)).symm)))
  have hdone : trimEnd (dataPrefix ++ text) ≠ doneMarker := by
    rw [hcolon]
    exact fun h => absurd (List.cons.inj h).1 (by decide)
  have hprefix : (dataPrefix ++ trimEnd (dataPrefix ++ text)).dropPrefix? dataPrefix
      = some (trimEnd (dataPrefix ++ text)) := List.dropPrefix?_append_of_beq _ (by simp)
  have hline : ¬ (dataPrefix ++ trimEnd (dataPrefix ++ text) = []
      ∨ dataPrefix ++ trimEnd (dataPrefix ++ text) = [':']) := by
    simp [dataPrefix]
  rw [sseLine, htrim, if_neg hline, hprefix]
  simp only [if_neg hdone]

/-! ## The first frame of a stream -/

/-- The first line of a text, here with something before it. -/
theorem exists_firstLine {before : List Char} (hbefore : '\n' ∉ before) (text : List Char) :
    ∃ line more, (before ++ text).splitOn '\n' = (before ++ line) :: more ∧ '\n' ∉ line
      ∧ (line = text ∨ ∃ rest, text = line ++ '\n' :: rest) := by
  by_cases hfeed : '\n' ∈ text
  · obtain ⟨line, rest, rfl, hline⟩ := List.eq_append_cons_of_mem hfeed
    refine ⟨line, rest.splitOn '\n', ?_, hline, .inr ⟨rest, rfl⟩⟩
    rw [← List.append_assoc, List.splitOn_append_cons_self,
      List.splitOn_eq_singleton (by simp [hbefore, hline]), List.singleton_append]
  · exact ⟨text, [], List.splitOn_eq_singleton (by simp [hbefore, hfeed]), hfeed, .inl rfl⟩

/-- A second prefix changes the text. -/
theorem ne_trimEnd_prefixed {text line : List Char} (hline : '\n' ∉ line)
    (hfirst : line = text ∨ ∃ rest, text = line ++ '\n' :: rest) :
    trimEnd (dataPrefix ++ line) ≠ text := by
  intro heq
  have hsub := trimEnd_prefix (dataPrefix ++ line)
  rw [heq] at hsub
  rcases hfirst with rfl | ⟨rest, rfl⟩
  · -- the text would end in no blank, so that trimming leaves both prefixes
    have hne : line ≠ [] := by
      rintro rfl
      exact absurd heq (by decide)
    have hlast : isWhitespace ((dataPrefix ++ line).getLast (by simp [hne])) = false := by
      have hend := trimEnd_getLast (heq ▸ hne)
      simp only [heq] at hend
      rwa [List.getLast_append_of_ne_nil _ hne]
    have hstays : trimEnd (dataPrefix ++ line) = dataPrefix ++ line :=
      List.rdropWhile_eq_self_iff.2 fun _ => Bool.eq_false_iff.1 hlast
    have hlength := congrArg List.length (hstays.symm.trans heq)
    rw [List.length_append] at hlength
    exact absurd hlength (by simp [dataPrefix])
  · have hfeed : '\n' ∈ dataPrefix ++ line := hsub.subset (by simp)
    rcases List.mem_append.1 hfeed with hfeed | hfeed
    · exact absurd hfeed (by decide)
    · exact hline hfeed

/-- The first event that is decoded after a frame is not the frame's payload. -/
theorem parseSseEvents_framed (payload : String) (rest : List Char) :
    ∃ event more, parseSseEvents (String.ofList (axumEvent (ServerSentFrame.data payload).render ++ rest))
        = event :: more ∧ event ≠ ⟨payload⟩ := by
  obtain ⟨line, more, hsplit, hline, hfirst⟩ :=
    exists_firstLine (show '\n' ∉ dataPrefix by decide) payload.toList
  have htext : axumEvent (ServerSentFrame.data payload).render ++ rest
      = (dataPrefix ++ (dataPrefix ++ line)) ++ '\n' ::
        (more.flatMap (fun line => dataPrefix ++ line ++ ['\n']) ++ ['\n'] ++ rest) := by
    have hrender : (ServerSentFrame.data payload).render.toList = dataPrefix ++ payload.toList :=
      String.toList_append.trans (congrArg (· ++ payload.toList) (by decide))
    rw [axumEvent, hrender, hsplit, List.flatMap_cons]
    simp only [List.append_assoc, List.cons_append, List.nil_append]
  have hone : parseSseEvents (String.ofList (dataPrefix ++ (dataPrefix ++ line)))
      = [⟨String.ofList (trimEnd (dataPrefix ++ line))⟩] := by
    rw [parseSseEvents_eq, String.toList_ofList, List.splitOn_eq_singleton, List.filterMap_cons, sseLine_twice]
    · rfl
    · simp only [List.mem_append, hline, or_false]
      decide
  refine ⟨_, _, by rw [htext, parseSseEvents_append, hone]; rfl, ?_⟩
  intro hevent
  have hsame := congrArg (fun event : SseEvent => event.data.toList) hevent
  simp only [String.toList_ofList] at hsame
  exact ne_trimEnd_prefixed hline hfirst hsame

/-! ## Streams of frames -/

/-- The JSON of a frame. -/
def ServerSentFrame.payload : ServerSentFrame → String
  | .data payload => payload
  | .event _ payload => payload

theorem translatedData_ok {σ : Type} (push : σ → SseEvent → List ServerSentFrame × σ) (error : String) (t : σ)
    (events : List SseEvent) :
    translatedData push error t (events.map .ok) = (pushAll push t events).map ServerSentFrame.render := by
  induction events generalizing t with
  | nil => rfl
  | cons event rest ih => rw [List.map_cons, translatedData, pushAll, List.map_append, ih]

/-- The first event opens the message with the role chunk. -/
theorem OpenAiStreamTranslator.pushAll_new (json : JsonCodec) (id model : String) (created : Int)
    (event : SseEvent) (rest : List SseEvent) :
    ∃ payload frames, pushAll (OpenAiStreamTranslator.push json) (.new id model created) (event :: rest)
      = .data payload :: frames := by
  rw [pushAll]
  generalize pushAll (OpenAiStreamTranslator.push json)
    (OpenAiStreamTranslator.push json (.new id model created) event).2 rest = later
  unfold OpenAiStreamTranslator.push
  split
  · contradiction
  · cases parseCanonicalEvent json event.data <;> exact ⟨_, _, rfl⟩

/-- With an event, the first thing that is decoded is wrong. -/
theorem StreamWire.openai_body_ne (json : JsonCodec) (id model : String) (created : Int) (event : SseEvent)
    (rest : List SseEvent) :
    parseSseEvents ((StreamWire.openai id model created).body json ((event :: rest).map .ok))
      ≠ (pushAll (OpenAiStreamTranslator.push json) (.new id model created) (event :: rest)).map
        (fun frame => ⟨frame.payload⟩) := by
  have hdata : (StreamWire.openai id model created).data json ((event :: rest).map .ok)
      = (pushAll (OpenAiStreamTranslator.push json) (.new id model created) (event :: rest)).map
        ServerSentFrame.render := translatedData_ok _ _ _ (event :: rest)
  obtain ⟨payload, frames, hframes⟩ := OpenAiStreamTranslator.pushAll_new json id model created event rest
  obtain ⟨first, more, hparse, hne⟩ := parseSseEvents_framed payload
    ((frames.map ServerSentFrame.render).flatMap axumEvent)
  rw [StreamWire.body, hdata, hframes, List.map_cons, List.flatMap_cons, hparse, List.map_cons]
  exact fun h => hne (List.cons.inj h).1

/-- The client decodes the payloads of the frames exactly when there are none. -/
theorem StreamWire.openai_body_decodes_iff (json : JsonCodec) (id model : String) (created : Int)
    (events : List SseEvent) :
    parseSseEvents ((StreamWire.openai id model created).body json (events.map .ok))
        = (pushAll (OpenAiStreamTranslator.push json) (.new id model created) events).map
          (fun frame => ⟨frame.payload⟩)
      ↔ events = [] := by
  constructor
  · intro hdecodes
    by_contra hevents
    obtain ⟨event, rest, rfl⟩ := List.exists_cons_of_ne_nil hevents
    exact StreamWire.openai_body_ne json id model created event rest hdecodes
  · rintro rfl
    rfl

/-- A text and the end of the stream. -/
theorem StreamWire.openai_body_ne_hello :
    parseSseEvents ((StreamWire.openai "chatcmpl-1" "gpt-4" 12345).body jsonText
        ([⟨buildSseDelta jsonText "Hello"⟩, ⟨buildSseFinish jsonText 5 2 (some "stop")⟩].map .ok))
      ≠ (pushAll (OpenAiStreamTranslator.push jsonText) (.new "chatcmpl-1" "gpt-4" 12345)
        [⟨buildSseDelta jsonText "Hello"⟩, ⟨buildSseFinish jsonText 5 2 (some "stop")⟩]).map
        (fun frame => ⟨frame.payload⟩) :=
  StreamWire.openai_body_ne jsonText "chatcmpl-1" "gpt-4" 12345 _ _

end Godwit
