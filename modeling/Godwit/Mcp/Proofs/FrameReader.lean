import Godwit.Lib.Pieces
import Godwit.Mcp.Proofs.JsonRpc

set_option autoImplicit false

/-! # Frames from a pipe

The reader makes one frame of each line, wherever the chunks are cut (`FrameReader.pushAll_eq`). It trims a line
that still has its line feed, so there is always something left to parse: a blank line gives a frame with a parse
error, and the messages come out alone exactly when no blank line stands between them (`pushAll_pipe_iff`). -/

namespace Godwit

/-! ## Lines -/

/-- What comes of a line. -/
def lineFrames (serde : RpcSerde) (line : List UInt8) : List (Except FrameError RpcMessage) :=
  [RpcMessage.fromFrame serde (trimBuf (line ++ [0x0A]))]

/-- The line feed of a line is not trimmed, nor is anything before it at the end. -/
theorem trimBuf_line (line : List UInt8) : trimBuf (line ++ [0x0A]) = line.dropWhile trimmedByte ++ [0x0A] := by
  have hdrop : (line ++ [0x0A]).dropWhile trimmedByte = line.dropWhile trimmedByte ++ [0x0A] := by
    rw [List.dropWhile_append]
    split_ifs with hblank
    · rw [List.isEmpty_iff.1 hblank]
      rfl
    · rfl
  rw [trimBuf, hdrop]
  exact List.rdropWhile_concat_neg trimmedByte _ 0x0A (by decide)

theorem nextLineOffset_line {line : List UInt8} (hline : 0x0A ∉ line) (rest : List UInt8) :
    nextLineOffset (line ++ 0x0A :: rest) = some line.length := by
  have hnone : line.findIdx? (· == 0x0A) = none := by
    refine List.findIdx?_eq_none_iff.2 fun b hb => beq_eq_false_iff_ne.2 ?_
    rintro rfl
    exact hline hb
  rw [nextLineOffset, List.findIdx?_append, hnone, List.findIdx?_cons]
  simp

section Reader

variable (serde : RpcSerde)

/-- The loop drains the lines that end in the buffer. -/
theorem drainLines_eq {rounds : Nat} {buffer : List UInt8} (hrounds : buffer.length ≤ rounds) :
    drainLines serde rounds buffer = drain 0x0A (lineFrames serde) buffer := by
  induction buffer using lines_induction (0x0A : UInt8) generalizing rounds with
  | last buffer hbuffer =>
      have hnone : nextLineOffset buffer = none := by
        refine List.findIdx?_eq_none_iff.2 fun b hb => beq_eq_false_iff_ne.2 ?_
        rintro rfl
        exact hbuffer hb
      rw [drain_last _ _ hbuffer]
      cases rounds with
      | zero => rfl
      | succ rounds => rw [drainLines, hnone]
  | step line rest hline ih =>
      rw [List.length_append, List.length_cons] at hrounds
      obtain ⟨rounds, rfl⟩ : ∃ n, rounds = n + 1 := ⟨rounds - 1, by omega⟩
      have htake : (line ++ 0x0A :: rest).take (line.length + 1) = line ++ [0x0A] := by
        rw [List.take_length_add_append]
        rfl
      have hdrop : (line ++ 0x0A :: rest).drop (line.length + 1) = rest := by
        rw [List.drop_length_add_append]
        rfl
      -- something is left of the line, its line feed at least
      have hleft : (trimBuf (line ++ [0x0A])).isEmpty = false := by
        rw [trimBuf_line]
        simp
      rw [drainLines, nextLineOffset_line hline, drain_line _ _ hline]
      simp only [htake, hdrop, hleft, ih (show rest.length ≤ rounds by omega)]
      rfl

/-- Chunks give the frames of the lines, wherever they are cut. -/
theorem FrameReader.pushAll_eq {reader : FrameReader} (hreader : 0x0A ∉ reader.buffer)
    (chunks : List (List UInt8)) :
    reader.pushAll serde chunks
      = (drain 0x0A (lineFrames serde) (reader.buffer ++ chunks.flatten)).1 := by
  rw [← feedAll_eq 0x0A (lineFrames serde) hreader]
  induction chunks generalizing reader with
  | nil => rfl
  | cons chunk chunks ih =>
      have hpush : reader.push serde chunk = ((drain 0x0A (lineFrames serde) (reader.buffer ++ chunk)).1,
          ⟨(drain 0x0A (lineFrames serde) (reader.buffer ++ chunk)).2⟩) := by
        rw [FrameReader.push, drainLines_eq serde le_rfl]
      have hlater := @ih ⟨(drain 0x0A (lineFrames serde) (reader.buffer ++ chunk)).2⟩
        (not_mem_drain 0x0A (lineFrames serde) (reader.buffer ++ chunk))
      rw [FrameReader.pushAll, feedAll, hpush, hlater]

end Reader

/-! ## Messages and blank lines -/

/-- The two ways to end a line. -/
inductive LineEnding where
  | lf
  | crlf

/-- What stands before the line feed. -/
def LineEnding.bytes : LineEnding → List UInt8
  | .lf => []
  | .crlf => [0x0D]

/-- A line of a pipe: a message, or nothing but spaces, tabs and carriage returns. -/
inductive PipeLine where
  | message (message : RpcMessage) (ending : LineEnding)
  | blank (blanks : List UInt8) (hblanks : blanks.all trimmedByte = true) (ending : LineEnding)

/-- The line carries no message. -/
def PipeLine.IsBlank : PipeLine → Prop
  | .message _ _ => False
  | .blank _ _ _ => True

/-- The message of a line. -/
def PipeLine.sent? : PipeLine → Option RpcMessage
  | .message m _ => some m
  | .blank _ _ _ => none

section Pipe

variable (serde : RpcSerde)

/-- The line without its line feed: a frame is the text of its message and a line feed. -/
def PipeLine.text : PipeLine → List UInt8
  | .message m ending => utf8Bytes (serde.json.toString m.toValue) ++ ending.bytes
  | .blank blanks _ ending => blanks ++ ending.bytes

/-- The line as it is written. -/
def PipeLine.bytes (line : PipeLine) : List UInt8 := line.text serde ++ [0x0A]

/-- A frame stands in the pipe as it is written. -/
theorem PipeLine.bytes_message_lf (m : RpcMessage) :
    (PipeLine.message m .lf).bytes serde = utf8Bytes (m.toFrame serde) := by
  rw [PipeLine.bytes, PipeLine.text, LineEnding.bytes, List.append_nil, utf8Bytes, utf8Bytes, RpcMessage.toFrame,
    String.toList_append, List.flatMap_append]
  rfl

/-- What is assumed of the documents of messages: they are read back, and their numbers are numbers. -/
def PipeLine.Readable (line : PipeLine) : Prop :=
  ∀ m ∈ line.sent?, m.toValue.numeric = true
    ∧ serde.json.fromStr (serde.json.toString m.toValue) = some m.toValue

/-- The frame of a line. -/
def PipeLine.frame : PipeLine → Except FrameError RpcMessage
  | .message m _ => .ok m.withoutNull
  | .blank _ _ _ => .error (.parse (serde.sliceError [0x0A]))

variable {serde}

theorem PipeLine.lineFeed_not_mem_text (hserde : OneLineText serde.json) {line : PipeLine}
    (hline : line.Readable serde) : 0x0A ∉ line.text serde := by
  have hending : ∀ ending : LineEnding, (0x0A : UInt8) ∉ ending.bytes := by
    rintro (_ | _) <;> decide
  cases line with
  | message m ending =>
      have hnumeric := (hline m rfl).1
      rw [PipeLine.text, List.mem_append, not_or]
      exact ⟨lineFeed_not_mem_utf8 (hserde.oneLine _ hnumeric), hending ending⟩
  | blank blanks hblanks ending =>
      rw [PipeLine.text, List.mem_append, not_or]
      refine ⟨fun hmem => ?_, hending ending⟩
      exact absurd (List.all_eq_true.1 hblanks _ hmem) (by decide)

/-- A blank line is trimmed down to its line feed, which is no document. -/
theorem PipeLine.lineFrames_blank (hserde : OneLineText serde.json) {blanks : List UInt8}
    (hblanks : blanks.all trimmedByte = true) (ending : LineEnding) :
    lineFrames serde (blanks ++ ending.bytes) = [.error (.parse (serde.sliceError [0x0A]))] := by
  have hall : ∀ b ∈ blanks ++ ending.bytes, trimmedByte b = true := by
    intro b hb
    rcases List.mem_append.1 hb with hb | hb
    · exact List.all_eq_true.1 hblanks b hb
    · cases ending with
      | lf => exact absurd hb List.not_mem_nil
      | crlf =>
          rw [List.mem_singleton.1 hb]
          decide
  have hfeed : serde.fromSlice [0x0A] = none := by
    have hblank := @OneLineText.fromStr_blank _ hserde ['\n'] (by simp [jsonBlank])
    rw [← RpcSerde.fromSlice_utf8] at hblank
    exact hblank
  rw [lineFrames, trimBuf_line, List.dropWhile_eq_nil_iff.2 hall, List.nil_append, RpcMessage.fromFrame, hfeed]

/-- Nothing is trimmed off a message, and the blanks after it are skipped. -/
theorem PipeLine.lineFrames_message (hserde : OneLineText serde.json) {m : RpcMessage}
    (hround : serde.json.fromStr (serde.json.toString m.toValue) = some m.toValue) (ending : LineEnding) :
    lineFrames serde (utf8Bytes (serde.json.toString m.toValue) ++ ending.bytes) = [.ok m.withoutNull] := by
  obtain ⟨fields, hfields⟩ := m.toValue_obj
  obtain ⟨text, htext⟩ := hserde.brace fields
  have hstart : (utf8Bytes (serde.json.toString m.toValue) ++ ending.bytes).dropWhile trimmedByte
      = utf8Bytes (serde.json.toString m.toValue) ++ ending.bytes := by
    rw [utf8Bytes, hfields, htext]
    rfl
  have hending : ∃ after : List Char, (∀ c ∈ after, jsonBlank c = true)
      ∧ ending.bytes ++ [0x0A] = after.flatMap String.utf8EncodeChar := by
    cases ending with
    | lf => exact ⟨['\n'], by simp [jsonBlank], rfl⟩
    | crlf => exact ⟨['\r', '\n'], by simp [jsonBlank], rfl⟩
  obtain ⟨after, hafter, hbytes⟩ := hending
  rw [lineFrames, trimBuf_line, hstart, List.append_assoc, hbytes, utf8Bytes, ← List.flatMap_append,
    RpcMessage.fromFrame_blanks hserde hround hafter]

theorem PipeLine.lineFrames_text (hserde : OneLineText serde.json) {line : PipeLine} (hline : line.Readable serde) :
    lineFrames serde (line.text serde) = [line.frame serde] := by
  cases line with
  | message m ending => exact PipeLine.lineFrames_message hserde (hline m rfl).2 ending
  | blank blanks hblanks ending => exact PipeLine.lineFrames_blank hserde hblanks ending

/-- Each line gives one frame, wherever the bytes are cut. -/
theorem FrameReader.pushAll_pipe (hserde : OneLineText serde.json) {lines : List PipeLine}
    (hlines : ∀ line ∈ lines, line.Readable serde) {chunks : List (List UInt8)}
    (hchunks : chunks.flatten = lines.flatMap (PipeLine.bytes serde)) :
    FrameReader.new.pushAll serde chunks = lines.map (PipeLine.frame serde) := by
  have htexts : ∀ text ∈ lines.map (PipeLine.text serde), 0x0A ∉ text := by
    intro text htext
    obtain ⟨line, hline, rfl⟩ := List.mem_map.1 htext
    exact PipeLine.lineFeed_not_mem_text hserde (hlines line hline)
  have hbytes : lines.flatMap (PipeLine.bytes serde) = (lines.map (PipeLine.text serde)).flatMap (· ++ [0x0A]) := by
    rw [List.flatMap_map]
    rfl
  have hnew : 0x0A ∉ FrameReader.new.buffer := List.not_mem_nil
  rw [FrameReader.pushAll_eq serde hnew, FrameReader.new, List.nil_append, hchunks, hbytes,
    drain_lines _ _ htexts, List.flatMap_map, List.map_eq_flatMap]
  exact List.flatMap_congr fun line hline => PipeLine.lineFrames_text hserde (hlines line hline)

end Pipe

/-- Frames of lines are messages alone when no line is blank and every message is read as it was. -/
theorem map_frame_eq_iff (serde : RpcSerde) (lines : List PipeLine) :
    lines.map (PipeLine.frame serde) = (lines.filterMap PipeLine.sent?).map Except.ok
      ↔ (∀ line ∈ lines, ¬ line.IsBlank) ∧ ∀ m ∈ lines.filterMap PipeLine.sent?, m.payload ≠ some .null := by
  induction lines with
  | nil => simp
  | cons line lines ih =>
      cases line with
      | message m ending =>
          have hm := m.withoutNull_eq_self_iff
          simp [PipeLine.frame, PipeLine.sent?, PipeLine.IsBlank, ih, hm]
          tauto
      | blank blanks hblanks ending =>
          -- the frame of the blank line is an error, and the messages are not
          refine ⟨fun h => ?_, fun h => absurd trivial (h.1 _ List.mem_cons_self)⟩
          have hhead := congrArg List.head? h
          rw [List.filterMap_cons_none rfl, List.map_cons, List.head?_cons, List.head?_map] at hhead
          cases hsent : (lines.filterMap PipeLine.sent?).head? with
          | none => simp [hsent] at hhead
          | some m => simp [hsent, PipeLine.frame] at hhead

/-- The reader yields the messages of a pipe, in order and nothing else, exactly when no blank line is among
    them and none has a payload that is null. -/
theorem FrameReader.pushAll_pipe_iff (serde : RpcSerde) (hserde : OneLineText serde.json) (lines : List PipeLine)
    (hlines : ∀ line ∈ lines, line.Readable serde) (chunks : List (List UInt8))
    (hchunks : chunks.flatten = lines.flatMap (PipeLine.bytes serde)) :
    FrameReader.new.pushAll serde chunks = (lines.filterMap PipeLine.sent?).map Except.ok
      ↔ (∀ line ∈ lines, ¬ line.IsBlank) ∧ ∀ m ∈ lines.filterMap PipeLine.sent?, m.payload ≠ some .null := by
  rw [FrameReader.pushAll_pipe hserde hlines hchunks]
  exact map_frame_eq_iff serde lines

/-- A blank line before the notification that ends the handshake. -/
def blankThenInitialized : List PipeLine := [.blank [] rfl .lf, .message initializedNotification .lf]

theorem blankThenInitialized_readable : ∀ line ∈ blankThenInitialized, line.Readable .plain := by
  intro line hline m hm
  rcases List.mem_cons.1 hline with rfl | hline
  · exact absurd hm (by simp [PipeLine.sent?])
  · rw [List.mem_singleton.1 hline] at hm
    obtain rfl : initializedNotification = m := Option.some_inj.1 hm
    exact ⟨by decide, initializedNotification_round⟩

theorem blankThenInitialized_not_alone :
    FrameReader.new.pushAll .plain [blankThenInitialized.flatMap (PipeLine.bytes .plain)]
      ≠ (blankThenInitialized.filterMap PipeLine.sent?).map Except.ok := by
  rw [FrameReader.pushAll_pipe jsonLine_oneLineText blankThenInitialized_readable (List.flatten_singleton ..)]
  intro h
  exact ((map_frame_eq_iff .plain blankThenInitialized).1 h).1 _ List.mem_cons_self trivial

theorem FrameReader.pushAll_pipe_iff_blank :
    (∀ line ∈ blankThenInitialized, line.Readable .plain)
      ∧ (FrameReader.new.pushAll .plain [blankThenInitialized.flatMap (PipeLine.bytes .plain)]
          = (blankThenInitialized.filterMap PipeLine.sent?).map Except.ok
        ↔ (∀ line ∈ blankThenInitialized, ¬ line.IsBlank)
          ∧ ∀ m ∈ blankThenInitialized.filterMap PipeLine.sent?, m.payload ≠ some .null) :=
  ⟨blankThenInitialized_readable, FrameReader.pushAll_pipe_iff .plain jsonLine_oneLineText blankThenInitialized
    blankThenInitialized_readable _ (List.flatten_singleton ..)⟩

end Godwit
