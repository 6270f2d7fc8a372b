import Godwit.Providers.Proofs.SseEgress

set_option autoImplicit false

/-! # The Anthropic message stream

`MessagePhase` reads a stream the way the protocol has it: blocks are opened and closed by index between
the start of the message and its delta, and what a delta carries fits its block. The translator opens a
text block with the message and never closes a block, so a stream of it is not one of these
(`never_messageStream`). What it emits up to a finish is told by `frameNames_finish`. -/

namespace Godwit

/-! ## The protocol -/

/-- A frame, as far as the protocol looks at it. -/
inductive MessageFrame where
  | messageStart
  | contentBlockStart (index : Int) (kind : String)
  | contentBlockDelta (index : Int) (kind : String)
  | contentBlockStop (index : Int)
  | messageDelta
  | messageStop
  | other
  deriving DecidableEq, Repr

/-- The type of an object inside a payload. -/
def Json.typeOf (key : String) (v : Json) : Option String := ((v.get key).bind (Json.get "type")).bind Json.asStr

/-- A frame by its name and its payload. -/
def messageFrame (name : String) (v : Json) : MessageFrame :=
  let index := (v.get "index").bind Json.asI64
  if name = "message_start" then .messageStart
  else if name = "content_block_start" then
    match index, v.typeOf "content_block" with
    | some index, some kind => .contentBlockStart index kind
    | _, _ => .other
  else if name = "content_block_delta" then
    match index, v.typeOf "delta" with
    | some index, some kind => .contentBlockDelta index kind
    | _, _ => .other
  else if name = "content_block_stop" then index.elim .other .contentBlockStop
  else if name = "message_delta" then .messageDelta
  else if name = "message_stop" then .messageStop
  else .other

/-- What a reader of the protocol takes a frame for. -/
def readMessageFrame (json : JsonCodec) : ServerSentFrame → MessageFrame
  | .data _ => .other
  | .event name payload => (json.fromStr payload).elim .other (messageFrame name)

/-- A delta fits the block it is in. -/
def deltaFits (delta block : String) : Bool :=
  delta == "text_delta" && block == "text" || delta == "input_json_delta" && block == "tool_use"

/-- Where in a message the reader is. -/
inductive MessagePhase where
  | before
  /-- In the message, with these blocks open. -/
  | inMessage (blocks : List (Int × String))
  /-- After the message delta. -/
  | closing
  | done
  deriving DecidableEq, Repr

/-- The phase after a frame, if the frame may come here. -/
def MessagePhase.step : MessagePhase → MessageFrame → Option MessagePhase
  | .before, .messageStart => some (.inMessage [])
  | .inMessage blocks, .contentBlockStart index kind =>
    if index ∈ blocks.map Prod.fst then none else some (.inMessage ((index, kind) :: blocks))
  | .inMessage blocks, .contentBlockDelta index kind =>
    if blocks.any fun block => block.1 == index && deltaFits kind block.2 then some (.inMessage blocks) else none
  | .inMessage blocks, .contentBlockStop index =>
    if index ∈ blocks.map Prod.fst then some (.inMessage (blocks.filter fun block => block.1 != index)) else none
  | .inMessage [], .messageDelta => some .closing
  | .closing, .messageStop => some .done
  | _, _ => none

/-- The phase after the frames. -/
def MessagePhase.run : MessagePhase → List MessageFrame → Option MessagePhase
  | phase, [] => some phase
  | phase, frame :: rest => (phase.step frame).bind fun phase => phase.run rest

/-- A whole message, and nothing after it. -/
def IsMessageStream (frames : List MessageFrame) : Prop := MessagePhase.before.run frames = some .done

instance (frames : List MessageFrame) : Decidable (IsMessageStream frames) :=
  inferInstanceAs (Decidable (_ = _))

/-- A text and a tool call, each in a block of its own. -/
example : IsMessageStream [.messageStart, .contentBlockStart 0 "text", .contentBlockDelta 0 "text_delta",
    .contentBlockStop 0, .contentBlockStart 1 "tool_use", .contentBlockDelta 1 "input_json_delta",
    .contentBlockStop 1, .messageDelta, .messageStop] := by decide

/-! ## A block that is never closed -/

/-- While no block is closed, an open one stays open. -/
theorem MessagePhase.step_open {blocks : List (Int × String)} (hopen : blocks ≠ []) {frame : MessageFrame}
    (hframe : ∀ index, frame ≠ .contentBlockStop index) {phase : MessagePhase}
    (hstep : (MessagePhase.inMessage blocks).step frame = some phase) :
    ∃ blocks', phase = .inMessage blocks' ∧ blocks' ≠ [] := by
  cases frame with
  | contentBlockStart index kind =>
      simp only [MessagePhase.step] at hstep
      split_ifs at hstep
      cases hstep
      exact ⟨_, rfl, List.cons_ne_nil _ _⟩
  | contentBlockDelta index kind =>
      simp only [MessagePhase.step] at hstep
      split_ifs at hstep
      cases hstep
      exact ⟨blocks, rfl, hopen⟩
  | contentBlockStop index => exact absurd rfl (hframe index)
  | messageDelta =>
      obtain ⟨block, rest, rfl⟩ := List.exists_cons_of_ne_nil hopen
      cases hstep
  | messageStart => cases hstep
  | messageStop => cases hstep
  | other => cases hstep

theorem MessagePhase.run_open (frames : List MessageFrame)
    (hframes : ∀ frame ∈ frames, ∀ index, frame ≠ .contentBlockStop index) {blocks : List (Int × String)}
    (hopen : blocks ≠ []) : (MessagePhase.inMessage blocks).run frames ≠ some .done := by
  induction frames generalizing blocks with
  | nil => exact nofun
  | cons frame rest ih =>
      intro hrun
      obtain ⟨phase, hstep, hrest⟩ := Option.bind_eq_some_iff.1 hrun
      obtain ⟨blocks', rfl, hopen'⟩ := MessagePhase.step_open hopen (hframes frame List.mem_cons_self) hstep
      exact ih (fun f hf => hframes f (List.mem_cons_of_mem _ hf)) hopen' hrest

/-- A message whose first block is not closed is no message. -/
theorem not_isMessageStream_of_open {first second : MessageFrame} {rest : List MessageFrame}
    (hsecond : second = .other ∨ ∃ index kind, second = .contentBlockStart index kind)
    (hrest : ∀ frame ∈ rest, ∀ index, frame ≠ .contentBlockStop index) :
    ¬ IsMessageStream (first :: second :: rest) := by
  intro hrun
  obtain ⟨phase, hfirst, hrun⟩ := Option.bind_eq_some_iff.1 hrun
  obtain ⟨phase', hnext, hrun⟩ := Option.bind_eq_some_iff.1 hrun
  cases first with
  | messageStart =>
      cases hfirst
      rcases hsecond with rfl | ⟨index, kind, rfl⟩
      · cases hnext
      · simp only [MessagePhase.step, List.map_nil, List.not_mem_nil, if_false] at hnext
        cases hnext
        exact MessagePhase.run_open rest hrest (List.cons_ne_nil _ _) hrun
  | _ => cases hfirst

/-! ## The frames of the translator -/

/-- The name of a frame. -/
def ServerSentFrame.name : ServerSentFrame → String
  | .data _ => "data"
  | .event name _ => name

section Codec

variable (json : JsonCodec)

/-- Only a frame of that name closes a block. -/
theorem readMessageFrame_ne_stop {frame : ServerSentFrame} (hname : frame.name ≠ "content_block_stop")
    (index : Int) : readMessageFrame json frame ≠ .contentBlockStop index := by
  cases frame with
  | data payload => simp [readMessageFrame]
  | event name payload =>
      replace hname : name ≠ "content_block_stop" := hname
      cases hparse : json.fromStr payload with
      | none => simp [readMessageFrame, hparse]
      | some v =>
          simp only [readMessageFrame, hparse, Option.elim_some, messageFrame, if_neg hname]
          split_ifs
          · simp
          · split <;> simp
          · split <;> simp
          · simp
          · simp
          · simp

theorem readMessageFrame_blockStart (payload : String) :
    readMessageFrame json (.event "content_block_start" payload) = .other
      ∨ ∃ index kind, readMessageFrame json (.event "content_block_start" payload)
        = .contentBlockStart index kind := by
  cases hparse : json.fromStr payload with
  | none => simp [readMessageFrame, hparse]
  | some v =>
      cases hindex : (v.get "index").bind Json.asI64 with
      | none => simp [readMessageFrame, hparse, messageFrame, hindex]
      | some index =>
          cases hkind : v.typeOf "content_block" <;>
            simp [readMessageFrame, hparse, messageFrame, hindex, hkind]

/-- The names of what one event becomes, after the frames that open the message. -/
def eventFrameNames : CanonicalEvent → List String
  | .delta _ => ["content_block_delta"]
  | .toolCall packed => if (extractPartialJson json packed).isSome then ["content_block_delta"] else []
  | .finish _ _ _ => ["message_delta", "message_stop"]
  | .error _ => ["data", "message_stop"]
  | .unknown => []

/-- The event ends the stream. -/
def CanonicalEvent.Ends : CanonicalEvent → Bool
  | .finish _ _ _ => true
  | .error _ => true
  | _ => false

/-- The frames in front of the first event. -/
def startFrameNames (started : Bool) : List String :=
  if started then [] else ["message_start", "content_block_start"]

theorem AnthropicStreamTranslator.push_names {t : AnthropicStreamTranslator} (ht : t.finished = false)
    (event : SseEvent) :
    (t.push json event).1.map ServerSentFrame.name
        = startFrameNames t.started ++ eventFrameNames json (parseCanonicalEvent json event.data)
      ∧ (t.push json event).2
        = { t with started := true, finished := (parseCanonicalEvent json event.data).Ends } := by
  obtain ⟨id, model, started, finished⟩ := t
  obtain rfl : finished = false := ht
  have hopening : (AnthropicStreamTranslator.startFrames json ⟨id, model, started, false⟩).map
      ServerSentFrame.name = startFrameNames started := by
    cases started <;> rfl
  simp only [AnthropicStreamTranslator.push, Bool.false_eq_true, if_false]
  cases parseCanonicalEvent json event.data with
  | toolCall packed =>
      cases hfragment : extractPartialJson json packed with
      | none => simp [hopening, hfragment, eventFrameNames, CanonicalEvent.Ends]
      | some partialJson =>
          simp [hopening, hfragment, eventFrameNames, CanonicalEvent.Ends, ServerSentFrame.name]
  | delta text => simp [hopening, eventFrameNames, CanonicalEvent.Ends, ServerSentFrame.name]
  | finish prompt completion reason =>
      simp [hopening, eventFrameNames, CanonicalEvent.Ends, ServerSentFrame.name, messageStop]
  | error message => simp [hopening, eventFrameNames, CanonicalEvent.Ends, ServerSentFrame.name, messageStop]
  | unknown => simp [hopening, eventFrameNames, CanonicalEvent.Ends]

/-- The frames of an event come after those that open the message. -/
theorem AnthropicStreamTranslator.push_opens {t : AnthropicStreamTranslator} (ht : t.finished = false)
    (event : SseEvent) : ∃ more, (t.push json event).1 = t.startFrames json ++ more := by
  rw [AnthropicStreamTranslator.push, if_neg (by simp [ht])]
  cases parseCanonicalEvent json event.data with
  | toolCall packed =>
      cases hfragment : extractPartialJson json packed with
      | none => exact ⟨[], by simp [hfragment]⟩
      | some partialJson => exact ⟨_, by simp only [hfragment]; rfl⟩
  | unknown => exact ⟨[], (List.append_nil _).symm⟩
  | delta text => exact ⟨_, rfl⟩
  | finish prompt completion reason => exact ⟨_, rfl⟩
  | error message => exact ⟨_, rfl⟩

theorem AnthropicStreamTranslator.pushAll_finished {t : AnthropicStreamTranslator} (ht : t.finished = true)
    (events : List SseEvent) : pushAll (AnthropicStreamTranslator.push json) t events = [] := by
  induction events with
  | nil => rfl
  | cons event rest ih =>
      have hpush : t.push json event = ([], t) := by rw [AnthropicStreamTranslator.push, if_pos ht]
      rw [pushAll, hpush, ih, List.nil_append]

/-- No frame closes a block. -/
theorem AnthropicStreamTranslator.pushAll_unclosed (t : AnthropicStreamTranslator) (events : List SseEvent) :
    ∀ frame ∈ pushAll (AnthropicStreamTranslator.push json) t events, frame.name ≠ "content_block_stop" := by
  induction events generalizing t with
  | nil => exact nofun
  | cons event rest ih =>
      by_cases ht : t.finished = true
      · rw [AnthropicStreamTranslator.pushAll_finished json ht]
        exact nofun
      · intro frame hframe
        rcases List.mem_append.1 hframe with hframe | hframe
        · have hname := List.mem_map_of_mem (f := ServerSentFrame.name) hframe
          rw [(AnthropicStreamTranslator.push_names json (by simpa using ht) event).1] at hname
          intro hstop
          rw [hstop] at hname
          revert hname
          cases t.started <;> cases parseCanonicalEvent json event.data <;>
            simp [startFrameNames, eventFrameNames]
        · exact ih _ frame hframe

/-- The frames of a stream with an event start with the message and its text block. -/
theorem AnthropicStreamTranslator.pushAll_unfinished (id model : String) (event : SseEvent)
    (rest : List SseEvent) :
    ¬ IsMessageStream ((pushAll (AnthropicStreamTranslator.push json) (.new id model) (event :: rest)).map
      (readMessageFrame json)) := by
  have hunclosed := AnthropicStreamTranslator.pushAll_unclosed json (.new id model) (event :: rest)
  obtain ⟨first, payload, frames, hframes⟩ : ∃ first payload frames,
      pushAll (AnthropicStreamTranslator.push json) (.new id model) (event :: rest)
        = first :: .event "content_block_start" payload :: frames := by
    obtain ⟨more, hmore⟩ := AnthropicStreamTranslator.push_opens json
      (show (AnthropicStreamTranslator.new id model).finished = false from rfl) event
    rw [pushAll, hmore]
    exact ⟨_, _, _, rfl⟩
  rw [hframes] at hunclosed ⊢
  refine not_isMessageStream_of_open (readMessageFrame_blockStart json payload) ?_
  intro frame hframe
  obtain ⟨sent, hsent, rfl⟩ := List.mem_map.1 hframe
  exact readMessageFrame_ne_stop json
    (hunclosed sent (List.mem_cons_of_mem _ (List.mem_cons_of_mem _ hsent)))

/-- What a stream up to its finish looks like: one block, opened with the message and left open. -/
theorem AnthropicStreamTranslator.frameNames_finish (t : AnthropicStreamTranslator) (ht : t.finished = false)
    (events : List SseEvent) (hevents : ∀ event ∈ events, (parseCanonicalEvent json event.data).Ends = false)
    {finish : SseEvent} (hfinish : IsFinish json finish) (rest : List SseEvent) :
    ∃ n, (pushAll (AnthropicStreamTranslator.push json) t (events ++ finish :: rest)).map ServerSentFrame.name
      = startFrameNames t.started ++ List.replicate n "content_block_delta"
        ++ ["message_delta", "message_stop"] := by
  induction events generalizing t with
  | nil =>
      obtain ⟨prompt, completion, reason, hparse⟩ := hfinish
      obtain ⟨hnames, hnext⟩ := AnthropicStreamTranslator.push_names json ht finish
      have hdone : ((t.push json finish).2).finished = true := by rw [hnext, hparse]; rfl
      refine ⟨0, ?_⟩
      rw [List.nil_append, pushAll, List.map_append, hnames, hparse,
        AnthropicStreamTranslator.pushAll_finished json hdone]
      simp [eventFrameNames]
  | cons event later ih =>
      obtain ⟨hnames, hnext⟩ := AnthropicStreamTranslator.push_names json ht event
      have hgoes := hevents event List.mem_cons_self
      obtain ⟨n, hlater⟩ := ih (t.push json event).2 (by rw [hnext, hgoes])
        (fun e he => hevents e (List.mem_cons_of_mem _ he))
      obtain ⟨k, hk⟩ : ∃ k, eventFrameNames json (parseCanonicalEvent json event.data)
          = List.replicate k "content_block_delta" := by
        revert hgoes
        cases parseCanonicalEvent json event.data with
        | delta text => exact fun _ => ⟨1, rfl⟩
        | toolCall packed =>
            intro _
            by_cases hfragment : (extractPartialJson json packed).isSome = true
            · exact ⟨1, by simp [eventFrameNames, hfragment]⟩
            · exact ⟨0, by simp [eventFrameNames, hfragment]⟩
        | unknown => exact fun _ => ⟨0, rfl⟩
        | finish _ _ _ => rintro ⟨⟩
        | error _ => rintro ⟨⟩
      have hstarted : ((t.push json event).2).started = true := by rw [hnext]
      refine ⟨k + n, ?_⟩
      rw [List.cons_append, pushAll, List.map_append, hnames, hlater, hstarted, hk,
        ← List.replicate_append_replicate]
      simp only [startFrameNames, if_true, List.nil_append, List.append_assoc]

end Codec

/-- No sequence of events becomes a message stream. -/
theorem AnthropicStreamTranslator.never_messageStream (json : JsonCodec) (id model : String)
    (events : List SseEvent) :
    ¬ IsMessageStream ((pushAll (AnthropicStreamTranslator.push json) (.new id model) events).map
      (readMessageFrame json)) := by
  cases events with
  | nil => exact nofun
  | cons event rest => exact AnthropicStreamTranslator.pushAll_unfinished json id model event rest

/-- A text and the end of the stream: the block that is opened with the message stays open. -/
theorem AnthropicStreamTranslator.hello_not_messageStream :
    (∃ n, (pushAll (AnthropicStreamTranslator.push jsonText) (.new "msg_1" "claude-3-5")
          [⟨buildSseDelta jsonText "Hi"⟩, ⟨buildSseFinish jsonText 10 4 (some "stop")⟩]).map ServerSentFrame.name
        = ["message_start", "content_block_start"] ++ List.replicate n "content_block_delta"
          ++ ["message_delta", "message_stop"])
      ∧ ¬ IsMessageStream ((pushAll (AnthropicStreamTranslator.push jsonText) (.new "msg_1" "claude-3-5")
          [⟨buildSseDelta jsonText "Hi"⟩, ⟨buildSseFinish jsonText 10 4 (some "stop")⟩]).map
          (readMessageFrame jsonText)) := by
  have hfinish : IsFinish jsonText ⟨buildSseFinish jsonText 10 4 (some "stop")⟩ := by
    obtain ⟨p, c, hparse⟩ := parseCanonicalEvent_finish jsonText (p := 10) (c := 4) (by omega) (by omega) "stop"
    exact ⟨p, c, some "stop", hparse⟩
  have hdelta : ∀ event ∈ [(⟨buildSseDelta jsonText "Hi"⟩ : SseEvent)],
      (parseCanonicalEvent jsonText event.data).Ends = false := by
    intro event hevent
    rw [List.mem_singleton.1 hevent, parseCanonicalEvent_delta]
    split_ifs <;> rfl
  exact ⟨AnthropicStreamTranslator.frameNames_finish jsonText (.new "msg_1" "claude-3-5") rfl _ hdelta hfinish [],
    AnthropicStreamTranslator.pushAll_unfinished jsonText "msg_1" "claude-3-5" _ _⟩

end Godwit
