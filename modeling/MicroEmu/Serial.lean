import MicroEmu.Codex.Lines
import MicroEmu.Wire.Decoder

/-!
# The serial port of the bridge

A thread reads whatever the port gives it, and sends on what its decoder makes of it.  The
port may return from a read with nothing, and a read that fails ends the thread.  Messages
are written report by report; a write that fails may have written a part of a frame.
-/

namespace MicroEmu
namespace Serial

open Json (Value)
open Wire (Frame FrameDecoder WireError)

/-! ## Events -/

/-- `SerialEvent`. -/
inductive SerialEvent where
  | frame (frame : Frame)
  | protocolError (error : String)
  | disconnected (error : String)
  deriving DecidableEq, Repr

/-- A word in four upper-case hexadecimal digits. -/
def upperHexWord (word : UInt16) : String :=
  Codex.upperHex (word >>> 8).toUInt8 ++ Codex.upperHex word.toUInt8

/-- The text of an error. -/
def displayWireError : WireError → String
  | .payloadTooLarge length => "bridge payload is " ++ toString length ++ " bytes; maximum is 64"
  | .unsupportedVersion version =>
      "unsupported bridge protocol version " ++ toString version.toNat
  | .unknownFrameType frameType => "unknown bridge frame type 0x" ++ Codex.upperHex frameType
  | .crcMismatch expected actual =>
      "bridge CRC mismatch: expected 0x" ++ upperHexWord expected ++ ", got 0x" ++
        upperHexWord actual

/-- The event of a result of the decoder. -/
def eventOf : Except WireError Frame → SerialEvent
  | .ok frame => .frame frame
  | .error error => .protocolError (displayWireError error)

/-! ## The reader -/

/-- What a read returns. -/
inductive ReadResult where
  | read (bytes : List UInt8)
  | failed (error : String)
  deriving DecidableEq, Repr

/-- The loop of the thread that `start_reader` starts, until it is cancelled. -/
def readerLoop : FrameDecoder → List ReadResult → List SerialEvent
  | _, [] => []
  | decoder, .read bytes :: results =>
      if bytes.length = 0 then readerLoop decoder results
      else
        let fed := decoder.feed bytes
        fed.1.map (fun result => eventOf result.1) ++ readerLoop fed.2 results
  | _, .failed error :: _ => [.disconnected ("RP2040 bridge read failed: " ++ error)]

/-- The events of a thread that has just been started. -/
def startReader (results : List ReadResult) : List SerialEvent := readerLoop .start results

/-- The bytes of the reads before one that failed. -/
def received : List ReadResult → List (List UInt8)
  | [] => []
  | .read bytes :: results => bytes :: received results
  | .failed _ :: _ => []

/-- The event of a read that failed. -/
def failure : List ReadResult → List SerialEvent
  | [] => []
  | .read _ :: results => failure results
  | .failed error :: _ => [.disconnected ("RP2040 bridge read failed: " ++ error)]

/-- A decoder that has looked at its buffer finds nothing new in no bytes. -/
def Settled (decoder : FrameDecoder) : Prop :=
  Wire.decoder.look decoder.buffer = .wait decoder.buffer

theorem settled_start : Settled .start := by
  rw [Settled]
  rfl

theorem settled_feed (decoder : FrameDecoder) (bytes : List UInt8) :
    Settled (decoder.feed bytes).2 :=
  Library.Scanner.look_scan Wire.decoder_reads.incremental.look_kept _

/-- The thread sends on what the decoder returns for all that was read, and last that a
read has failed. -/
theorem readerLoop_eq {decoder : FrameDecoder} (h : Settled decoder)
    (results : List ReadResult) :
    readerLoop decoder results =
      (FrameDecoder.feedAll (received results) decoder).1.map (fun result => eventOf result.1) ++
        failure results := by
  induction results generalizing decoder with
  | nil => rfl
  | cons result results ih =>
      cases result with
      | failed error => rfl
      | read bytes =>
          have hfed : FrameDecoder.feedAll (received (.read bytes :: results)) decoder =
              ((decoder.feed bytes).1 ++
                (FrameDecoder.feedAll (received results) (decoder.feed bytes).2).1,
                (FrameDecoder.feedAll (received results) (decoder.feed bytes).2).2) := rfl
          rw [readerLoop, hfed, List.map_append, List.append_assoc]
          split
          next hempty =>
            obtain rfl := List.eq_nil_of_length_eq_zero hempty
            have hnil : decoder.feed [] = ([], decoder) := Library.Scanner.feed_nil h
            rw [hnil, List.map_nil, List.nil_append]
            exact ih h
          · exact congrArg _ (ih (settled_feed decoder bytes))

theorem startReader_eq (results : List ReadResult) :
    startReader results =
      (FrameDecoder.feedAll (received results) .start).1.map (fun result => eventOf result.1) ++
        failure results := readerLoop_eq settled_start results

/-! ## The writer -/

/-- What the port does with a frame: it takes the bytes, or fails behind so many of them. -/
inductive WriteAnswer where
  | taken
  | failed (error : String) (written : Nat)
  deriving DecidableEq, Repr

/-- The port to write to: the bytes that have been written, and what it answers to later
frames; behind the last answer it takes them. -/
structure Writer where
  written : List UInt8
  answers : List WriteAnswer
  deriving DecidableEq, Repr

/-- `write_frame`. -/
def writeFrame (writer : Writer) (frame : Frame) : Except String Unit × Writer :=
  match writer.answers with
  | [] => (.ok (), { writer with written := writer.written ++ frame.encode })
  | .taken :: answers => (.ok (), ⟨writer.written ++ frame.encode, answers⟩)
  | .failed error count :: answers =>
      (.error ("RP2040 bridge write failed: " ++ error),
        ⟨writer.written ++ frame.encode.take count, answers⟩)

/-- `next_sequence`, with the number behind it. -/
def nextSequence (sequence : UInt16) : UInt16 × UInt16 := (sequence, sequence + 1)

/-- The loop of `send_codex_message`. -/
def sendReports : List (List UInt8) → Writer → UInt16 → Except String Unit × Writer × UInt16
  | [], writer, sequence => (.ok (), writer, sequence)
  | report :: reports, writer, sequence =>
      let number := nextSequence sequence
      match Frame.new .codexInputReport number.1 report with
      | .error error => (.error (displayWireError error), writer, number.2)
      | .ok frame =>
          match writeFrame writer frame with
          | (.error error, writer) => (.error error, writer, number.2)
          | (.ok _, writer) => sendReports reports writer number.2

/-- `send_codex_message`. -/
def sendCodexMessage (toVec : Value → List UInt8) (writer : Writer) (sequence : UInt16)
    (message : Value) : Except String Unit × Writer × UInt16 :=
  match Codex.frameJson toVec message with
  | .error error => (.error error, writer, sequence)
  | .ok reports => sendReports reports writer sequence

/-- Messages one after another, while they are sent. -/
def sendMessages (toVec : Value → List UInt8) :
    List Value → Writer → UInt16 → Except String Unit × Writer × UInt16
  | [], writer, sequence => (.ok (), writer, sequence)
  | message :: messages, writer, sequence =>
      match sendCodexMessage toVec writer sequence message with
      | (.error error, writer, sequence) => (.error error, writer, sequence)
      | (.ok _, writer, sequence) => sendMessages toVec messages writer sequence

/-- The frames that carry reports. -/
def inputFrames : UInt16 → List (List UInt8) → List Frame
  | _, [] => []
  | sequence, report :: reports =>
      ⟨.codexInputReport, sequence, report⟩ :: inputFrames (sequence + 1) reports

theorem inputFrames_append (sequence : UInt16) (first second : List (List UInt8)) :
    inputFrames sequence (first ++ second) =
      inputFrames sequence first ++
        inputFrames (sequence + UInt16.ofNat first.length) second := by
  induction first generalizing sequence with
  | nil => exact congrArg (inputFrames · second) (UInt16.add_zero sequence).symm
  | cons report first ih =>
      rw [List.cons_append, inputFrames, inputFrames, ih, UInt16.add_assoc, List.length_cons,
        Nat.add_comm first.length 1, UInt16.ofNat_add]
      rfl

/-- What has been written when a write is not refused. -/
theorem written_writeFrame {writer last : Writer} {frame : Frame}
    (h : writeFrame writer frame = (.ok (), last)) :
    last.written = writer.written ++ frame.encode := by
  rw [writeFrame] at h
  split at h
  · exact congrArg (·.written) (Prod.mk.inj h).2.symm
  · exact congrArg (·.written) (Prod.mk.inj h).2.symm
  · cases (Prod.mk.inj h).1

theorem written_sendReports {reports : List (List UInt8)} {writer last : Writer}
    {sequence next : UInt16} (h : sendReports reports writer sequence = (.ok (), last, next)) :
    last.written =
        writer.written ++ ((inputFrames sequence reports).map Frame.encode).flatten ∧
      next = sequence + UInt16.ofNat reports.length := by
  induction reports generalizing writer sequence with
  | nil =>
      obtain ⟨-, hrest⟩ := Prod.mk.inj h
      obtain ⟨rfl, rfl⟩ := Prod.mk.inj hrest
      exact ⟨(List.append_nil _).symm, (UInt16.add_zero _).symm⟩
  | cons report reports ih =>
      rw [sendReports] at h
      simp only [nextSequence] at h
      split at h
      next error hnew => cases (Prod.mk.inj h).1
      next frame hnew =>
        have hframe : (⟨.codexInputReport, sequence, report⟩ : Frame) = frame := by
          rw [Frame.new] at hnew
          split at hnew
          · cases hnew
          · exact Except.ok.inj hnew
        split at h
        next error middle hwrite => cases (Prod.mk.inj h).1
        next middle hwrite =>
          obtain ⟨hlast, hnext⟩ := ih h
          refine ⟨?_, ?_⟩
          · rw [hlast, written_writeFrame hwrite, inputFrames, List.map_cons, List.flatten_cons,
              hframe, List.append_assoc]
          · rw [hnext, UInt16.add_assoc, List.length_cons, Nat.add_comm reports.length 1,
              UInt16.ofNat_add]
            rfl

/-- Messages that were all sent are on the line as their reports, each in a frame of its own,
and the frames are numbered one after another. -/
theorem written_sendMessages {toVec : Value → List UInt8} {messages : List Value}
    {writer last : Writer} {sequence next : UInt16}
    (h : sendMessages toVec messages writer sequence = (.ok (), last, next)) :
    ∃ framed : List (List (List UInt8)),
      List.Forall₂ (fun message reports => Codex.frameJson toVec message = .ok reports) messages
        framed ∧
      last.written =
        writer.written ++ ((inputFrames sequence framed.flatten).map Frame.encode).flatten := by
  induction messages generalizing writer sequence with
  | nil =>
      obtain ⟨-, hrest⟩ := Prod.mk.inj h
      obtain ⟨rfl, -⟩ := Prod.mk.inj hrest
      exact ⟨[], .nil, (List.append_nil _).symm⟩
  | cons message messages ih =>
      rw [sendMessages] at h
      split at h
      · cases (Prod.mk.inj h).1
      next middle number hmessage =>
        rw [sendCodexMessage] at hmessage
        split at hmessage
        · cases (Prod.mk.inj hmessage).1
        next reports hreports =>
          obtain ⟨hmiddle, rfl⟩ := written_sendReports hmessage
          obtain ⟨framed, hframed, hlast⟩ := ih h
          refine ⟨reports :: framed, .cons hreports hframed, ?_⟩
          rw [hlast, hmiddle, List.flatten_cons, inputFrames_append, List.map_append,
            List.flatten_append, List.append_assoc]

end Serial
end MicroEmu
