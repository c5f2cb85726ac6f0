import MicroEmu.Firmware.Agreement

/-!
# Frames across the two implementations

Both encoders write the same bytes, and the decoder returns the frames that were
encoded.
-/

namespace MicroEmu
namespace Firmware

open Library (Block Verdict Scanner Cursor)
open Library.Block (exists_store_behind)
open Wire (Frame FrameDecoder Noise Outcome toLeBytes)

/-! ## The two encoders -/

/-- The firmware's form of a frame. -/
structure BridgeFrame.Holds (handed : BridgeFrame) (frame : Frame) : Prop where
  type : handed.type = frame.frameType.toByte
  sequence : handed.sequence = frame.sequence
  length : handed.length.toNat = frame.payload.length
  payload : handed.payload.cells.take frame.payload.length = frame.payload

theorem bridgeCrc16Ccitt_front {size : Nat} (block : Block UInt8 size) {front : List UInt8}
    (hfront : block.cells.take front.length = front) (h : front.length ≤ size) :
    bridgeCrc16Ccitt block front.length = some (Wire.crc16Ccitt front) := by
  rw [bridgeCrc16Ccitt_eq block h, hfront]

/-- What is written for a frame. -/
def FrameContent.encoded (content : FrameContent) : List UInt8 :=
  Wire.encoded content.type content.sequence content.payload

theorem BridgeFrame.length_payload {frame : BridgeFrame}
    (h : frame.length.toNat ≤ bridgeMaxPayload) :
    frame.content.payload.length = frame.length.toNat := by
  rw [content, List.length_take, frame.payload.length_cells]
  exact Nat.min_eq_left h

theorem BridgeFrame.length_encoded {frame : BridgeFrame}
    (h : frame.length.toNat ≤ bridgeMaxPayload) :
    frame.content.encoded.length = frame.length.toNat + 10 := by
  rw [FrameContent.encoded, Wire.length_encoded, length_payload h]

/-- The firmware writes the bytes of the frame, whatever its type. -/
theorem BridgeFrame.exists_encode {frame : BridgeFrame}
    (h : frame.length.toNat ≤ bridgeMaxPayload) {size : Nat} (destination : Block UInt8 size)
    {capacity : Nat} (hcapacity : frame.content.encoded.length ≤ capacity)
    (hsize : capacity ≤ size) :
    ∃ written, bridgeFrameEncode frame destination capacity =
        some (frame.content.encoded.length, written) ∧
      written.cells.take frame.content.encoded.length = frame.content.encoded := by
  have hlength := length_encoded h
  have htotal : bridgeHeaderBytes + frame.length.toNat + bridgeCrcBytes =
      frame.content.encoded.length := by
    rw [hlength, bridgeHeaderBytes, bridgeCrcBytes]
    omega
  have hroom : frame.length.toNat + 10 ≤ size := by omega
  have hpayload := length_payload h
  have hlengthBytes : frame.length = UInt16.ofNat frame.content.payload.length := by
    rw [hpayload, UInt16.ofNat_toNat]
  have hslice : frame.payload.slice 0 frame.length.toNat = some frame.content.payload := by
    rw [frame.payload.slice_eq (by rwa [Nat.zero_add]), List.drop_zero]
    rfl
  -- the parts of the header, then the payload, then the CRC of all of it
  have hempty : destination.cells.take ([] : List UInt8).length = [] := rfl
  obtain ⟨d1, hd1, hfront1⟩ := exists_store_behind destination hempty 0 rfl
    [bridgeMagic0, bridgeMagic1, bridgeVersion, frame.type] (show 4 ≤ size by omega)
  obtain ⟨d2, hd2, hfront2⟩ := exists_store_behind d1 hfront1 4 rfl
    (toLeBytes frame.sequence) (show 6 ≤ size by omega)
  obtain ⟨d3, hd3, hfront3⟩ := exists_store_behind d2 hfront2 6 rfl
    (toLeBytes frame.length) (show 8 ≤ size by omega)
  obtain ⟨d4, hd4, hfront4⟩ := exists_store_behind d3 hfront3 8 rfl frame.content.payload
    (by
      rw [List.length_append, hpayload]
      exact (show 8 + frame.length.toNat ≤ size by omega))
  have hheaded : [] ++ [bridgeMagic0, bridgeMagic1, bridgeVersion, frame.type] ++
      toLeBytes frame.sequence ++ toLeBytes frame.length ++ frame.content.payload =
      Wire.headed frame.type frame.sequence frame.content.payload := by
    rw [hlengthBytes]
    rfl
  rw [hheaded] at hfront4
  have hheadedLength := Wire.length_headed frame.type frame.sequence frame.content.payload
  have hcrc := bridgeCrc16Ccitt_front d4 hfront4 (by omega)
  have hcrcLength : frame.content.encoded.length - bridgeCrcBytes =
      (Wire.headed frame.type frame.sequence frame.content.payload).length := by
    rw [hlength, hheadedLength, hpayload]
    rfl
  obtain ⟨d5, hd5, hfront5⟩ := exists_store_behind d4 hfront4 _ hcrcLength
    (toLeBytes (Wire.crc16Ccitt (Wire.headed frame.type frame.sequence frame.content.payload)))
    (show frame.content.encoded.length ≤ size from Nat.le_trans hcapacity hsize)
  refine ⟨d5, ?_, hfront5⟩
  unfold bridgeFrameEncode writeU16Le
  rw [if_neg (Nat.not_lt.mpr h)]
  simp only [htotal, if_neg (Nat.not_lt.mpr hcapacity), Option.bind_eq_bind, writeU16Le_bytes, hd1,
    hd2, hd3, hd4, hslice, hcrcLength, hcrc, Option.bind_some]
  rw [← hcrcLength, hd5]
  rfl

theorem BridgeFrame.Holds.content_eq {handed : BridgeFrame} {frame : Frame}
    (h : handed.Holds frame) :
    handed.content = ⟨frame.frameType.toByte, frame.sequence, frame.payload⟩ := by
  rw [content, h.type, h.sequence, h.length, h.payload]

/-- The firmware writes the bytes that `Frame::encode` returns. -/
theorem exists_bridgeFrameEncode {handed : BridgeFrame} {frame : Frame} (h : handed.Holds frame)
    (hpayload : frame.payload.length ≤ Wire.maxPayload) {size : Nat}
    (destination : Block UInt8 size) {capacity : Nat} (hcapacity : frame.encode.length ≤ capacity)
    (hsize : capacity ≤ size) :
    ∃ written, bridgeFrameEncode handed destination capacity =
        some (frame.encode.length, written) ∧
      written.cells.take frame.encode.length = frame.encode := by
  have hencode : frame.encode = handed.content.encoded := by
    rw [h.content_eq]
    rfl
  rw [hencode] at hcapacity ⊢
  exact BridgeFrame.exists_encode (h.length.trans_le hpayload) destination hcapacity hsize

/-! ## Encoded frames come back -/

/-- The bytes of frames sent one after another. -/
def encodeAll (frames : List Frame) : List UInt8 := (frames.map Frame.encode).flatten

theorem scan_encodeAll {frames : List Frame}
    (hframes : ∀ frame ∈ frames, frame.payload.length ≤ Wire.maxPayload) {noise : List UInt8}
    (hnoise : Noise noise) (position : Nat) :
    (Wire.decoder.scan ⟨position, noise ++ encodeAll frames⟩).1.map Prod.fst =
        frames.map .ok ∧
      (Wire.decoder.scan ⟨position, noise ++ encodeAll frames⟩).2.buffer =
        if frames = [] then Wire.lastMagic noise.getLast? else [] := by
  induction frames generalizing noise position with
  | nil =>
      rw [encodeAll, List.map_nil, List.flatten_nil, List.append_nil,
        Scanner.scan_of_wait ⟨_, _⟩ (Wire.decoder_reads.noise hnoise)]
      exact ⟨rfl, rfl⟩
  | cons frame frames ih =>
      have hpayload := hframes frame (List.mem_cons_self ..)
      have hdecision : Wire.Decision (frame.encode ++ encodeAll frames)
          (.emit (.frame frame.frameType.toByte frame.sequence frame.payload)
            (encodeAll frames)) := .frame hpayload
      have hresult : (Outcome.frame frame.frameType.toByte frame.sequence frame.payload).result =
          .ok frame := by
        rw [Outcome.result, Wire.FrameType.tryFrom_toByte]
        rfl
      have hlook : Wire.decoder.look (noise ++ encodeAll (frame :: frames)) =
          .emit (.ok frame) (encodeAll frames) := by
        rw [encodeAll, List.map_cons, List.flatten_cons, ← encodeAll,
          Wire.decoder_reads.candidate hnoise hdecision, Verdict.map, hresult]
      -- the other frames follow without noise
      obtain ⟨hresults, hbuffer⟩ := ih (fun other h => hframes other (List.mem_cons_of_mem _ h))
        Noise.nil
        (Scanner.advance ⟨position, noise ++ encodeAll (frame :: frames)⟩
          (encodeAll frames)).position
      rw [List.nil_append] at hresults hbuffer
      rw [Scanner.scan_of_emit ⟨_, _⟩ hlook, if_neg (List.cons_ne_nil frame frames)]
      constructor
      · rw [List.map_cons, List.map_cons]
        exact congrArg _ hresults
      · refine hbuffer.trans ?_
        split <;> rfl

/-- Both encoders write the same bytes; and frames that follow noise come back as they
were, in order and without an error, however they are cut.  Nothing is left, unless there
was no frame and the noise ends with the first magic byte, which is kept. -/
theorem frames_round_trip {frames : List Frame}
    (hframes : ∀ frame ∈ frames, frame.payload.length ≤ Wire.maxPayload) {noise : List UInt8}
    (hnoise : Noise noise) {chunks : List (List UInt8)}
    (hchunks : chunks.flatten = noise ++ encodeAll frames) :
    (∀ frame : Frame, frame.payload.length ≤ Wire.maxPayload →
      ∀ handed : BridgeFrame, handed.Holds frame →
      ∀ (size : Nat) (destination : Block UInt8 size) (capacity : Nat),
        frame.encode.length ≤ capacity → capacity ≤ size →
        ∃ written, bridgeFrameEncode handed destination capacity =
            some (frame.encode.length, written) ∧
          written.cells.take frame.encode.length = frame.encode) ∧
    (FrameDecoder.feedAll chunks .start).1.map Prod.fst = frames.map .ok ∧
    (FrameDecoder.feedAll chunks .start).2.buffer =
      if frames = [] ∧ noise.getLast? = some 0x43 then [0x43] else [] := by
  have hfeed : FrameDecoder.feedAll chunks .start =
      Wire.decoder.scan ⟨0, noise ++ encodeAll frames⟩ := by
    rw [← hchunks]
    exact Wire.decoder_reads.incremental.feedAll_eq rfl chunks
  obtain ⟨hresults, hbuffer⟩ := scan_encodeAll hframes hnoise 0
  refine ⟨?_, ?_, ?_⟩
  · intro frame hpayload handed hholds size destination capacity hcapacity hsize
    exact exists_bridgeFrameEncode hholds hpayload destination hcapacity hsize
  · rw [hfeed, hresults]
  · rw [hfeed, hbuffer, Wire.lastMagic]
    by_cases hempty : frames = []
    · simp only [hempty, if_true, true_and]
    · simp only [hempty, if_false, false_and]

/-- Two frames, the first of which carries the bytes of the second. -/
def nestedFrames : List Frame :=
  [⟨.log, 7, (⟨.ping, 1, []⟩ : Frame).encode⟩, ⟨.ping, 1, []⟩]

theorem frames_round_trip_nested :
    (∀ frame : Frame, frame.payload.length ≤ Wire.maxPayload →
      ∀ handed : BridgeFrame, handed.Holds frame →
      ∀ (size : Nat) (destination : Block UInt8 size) (capacity : Nat),
        frame.encode.length ≤ capacity → capacity ≤ size →
        ∃ written, bridgeFrameEncode handed destination capacity =
            some (frame.encode.length, written) ∧
          written.cells.take frame.encode.length = frame.encode) ∧
    (FrameDecoder.feedAll [[0x4d, 0x43] ++ encodeAll nestedFrames] .start).1.map Prod.fst =
      nestedFrames.map .ok ∧
    (FrameDecoder.feedAll [[0x4d, 0x43] ++ encodeAll nestedFrames] .start).2.buffer =
      if nestedFrames = [] ∧ ([0x4d, 0x43] : List UInt8).getLast? = some 0x43 then [0x43]
      else [] :=
  frames_round_trip (show ∀ frame ∈ nestedFrames, frame.payload.length ≤ Wire.maxPayload by
    decide +kernel) (show Noise [0x4d, 0x43] by decide) (List.append_nil _)

/-- With no frame at all, the buffer is not always left empty. -/
theorem noise_leaves_magic_byte :
    ¬ ∀ (frames : List Frame), (∀ frame ∈ frames, frame.payload.length ≤ Wire.maxPayload) →
      ∀ noise, Noise noise → ∀ chunks, chunks.flatten = noise ++ encodeAll frames →
        (FrameDecoder.feedAll chunks .start).1.map Prod.fst = frames.map .ok ∧
        (FrameDecoder.feedAll chunks .start).2.buffer = [] := by
  intro h
  have hempty := (h [] (by decide) [0x43] (by decide) [[0x43]] rfl).2
  exact absurd hempty (by decide +kernel)

end Firmware
end MicroEmu
