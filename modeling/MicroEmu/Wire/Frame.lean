import MicroEmu.Library.Pairs
import MicroEmu.Library.Scanner

/-!
# Frames of the serial bridge

A frame is a magic pair, a version, a type, a sequence number and a length (both
little-endian), the payload, and a CRC over all of it.  The decoder looks for the
next magic pair in its buffer and decides on the candidate that starts there.
-/

namespace MicroEmu
namespace Wire

open Library (Verdict Scanner Cursor findPair)

/-! ## Constants -/

/-- `MAGIC`, the bytes of "CM". -/
def magic : List UInt8 := [0x43, 0x4d]

/-- `VERSION`. -/
def version : UInt8 := 1

/-- `MAX_PAYLOAD`. -/
def maxPayload : Nat := 64

/-- `HEADER_BYTES`. -/
def headerBytes : Nat := 8

/-- `CRC_BYTES`. -/
def crcBytes : Nat := 2

/-! ## Words -/

/-- `u16::to_le_bytes`. -/
def toLeBytes (value : UInt16) : List UInt8 :=
  [UInt8.ofNat (value.toNat % 256), UInt8.ofNat (value.toNat / 256)]

/-- `u16::from_le_bytes`. -/
def fromLeBytes (low high : UInt8) : UInt16 :=
  UInt16.ofNat (low.toNat + 256 * high.toNat)

theorem fromLeBytes_toLeBytes (value : UInt16) :
    fromLeBytes (UInt8.ofNat (value.toNat % 256)) (UInt8.ofNat (value.toNat / 256)) =
      value := by
  have hbound : value.toNat < 65536 := value.toNat_lt
  have hlow : (UInt8.ofNat (value.toNat % 256)).toNat = value.toNat % 256 := by
    rw [UInt8.toNat_ofNat']
    omega
  have hhigh : (UInt8.ofNat (value.toNat / 256)).toNat = value.toNat / 256 := by
    rw [UInt8.toNat_ofNat']
    omega
  rw [fromLeBytes, hlow, hhigh, Nat.mod_add_div, UInt16.ofNat_toNat]

theorem toNat_fromLeBytes (low high : UInt8) :
    (fromLeBytes low high).toNat = low.toNat + 256 * high.toNat := by
  have hlow : low.toNat < 256 := low.toNat_lt
  have hhigh : high.toNat < 256 := high.toNat_lt
  rw [fromLeBytes, UInt16.toNat_ofNat']
  omega

theorem toLeBytes_fromLeBytes (low high : UInt8) :
    toLeBytes (fromLeBytes low high) = [low, high] := by
  have hlow : low.toNat < 256 := low.toNat_lt
  rw [toLeBytes, toNat_fromLeBytes, Nat.add_mul_mod_self_left, Nat.mod_eq_of_lt hlow,
    Nat.add_mul_div_left _ _ (by decide), Nat.div_eq_of_lt hlow, Nat.zero_add,
    UInt8.ofNat_toNat, UInt8.ofNat_toNat]

/-! ## CRC -/

/-- One bit of the CRC. -/
def crcBit (crc : UInt16) : UInt16 :=
  if crc &&& 0x8000 ≠ 0 then (crc <<< 1) ^^^ 0x1021 else crc <<< 1

/-- One byte of the CRC. -/
def crcByte (crc : UInt16) (byte : UInt8) : UInt16 :=
  crcBit (crcBit (crcBit (crcBit (crcBit (crcBit (crcBit (crcBit
    (crc ^^^ (byte.toUInt16 <<< 8)))))))))

/-- `crc16_ccitt`. -/
def crc16Ccitt (bytes : List UInt8) : UInt16 := bytes.foldl crcByte 0xffff

/-! ## Frames -/

/-- `FrameType`. -/
inductive FrameType where
  | codexInputReport
  | codexOutputReport
  | ping
  | status
  | log
  deriving DecidableEq, Repr

/-- `WireError`. -/
inductive WireError where
  | payloadTooLarge (length : Nat)
  | unsupportedVersion (version : UInt8)
  | unknownFrameType (frameType : UInt8)
  | crcMismatch (expected actual : UInt16)
  deriving DecidableEq, Repr

namespace FrameType

/-- `frame_type as u8`. -/
def toByte : FrameType → UInt8
  | codexInputReport => 0x01
  | codexOutputReport => 0x02
  | ping => 0x03
  | status => 0x04
  | log => 0x05

/-- `FrameType::try_from`. -/
def tryFrom (value : UInt8) : Except WireError FrameType :=
  if value = 0x01 then .ok codexInputReport
  else if value = 0x02 then .ok codexOutputReport
  else if value = 0x03 then .ok ping
  else if value = 0x04 then .ok status
  else if value = 0x05 then .ok log
  else .error (.unknownFrameType value)

theorem tryFrom_toByte (frameType : FrameType) : tryFrom frameType.toByte = .ok frameType := by
  cases frameType <;> rfl

end FrameType

structure Frame where
  frameType : FrameType
  sequence : UInt16
  payload : List UInt8
  deriving DecidableEq, Repr

/-- `Frame::new`. -/
def Frame.new (frameType : FrameType) (sequence : UInt16) (payload : List UInt8) :
    Except WireError Frame :=
  if payload.length > maxPayload then .error (.payloadTooLarge payload.length)
  else .ok ⟨frameType, sequence, payload⟩

/-- The bytes the CRC covers. -/
def headed (typeByte : UInt8) (sequence : UInt16) (payload : List UInt8) : List UInt8 :=
  magic ++ version :: typeByte :: toLeBytes sequence ++
    toLeBytes (UInt16.ofNat payload.length) ++ payload

/-- A frame on the wire, with any type byte. -/
def encoded (typeByte : UInt8) (sequence : UInt16) (payload : List UInt8) : List UInt8 :=
  headed typeByte sequence payload ++ toLeBytes (crc16Ccitt (headed typeByte sequence payload))

/-- `Frame::encode`. -/
def Frame.encode (frame : Frame) : List UInt8 :=
  encoded frame.frameType.toByte frame.sequence frame.payload

/-! ## The magic pair -/

/-- `find_magic`. -/
def findMagic (bytes : List UInt8) : Option Nat := findPair 0x43 0x4d bytes

/-! ## The decoder -/

/-- A byte of the buffer; every index below is less than the length checked before. -/
def byteAt (buffer : List UInt8) (index : Nat) : UInt8 := buffer.getD index 0

/-- The rest of the loop body, for a buffer that starts with the magic pair. -/
def inspect (buffer : List UInt8) : Verdict UInt8 (Except WireError Frame) :=
  if buffer.length < headerBytes then .wait buffer
  else if byteAt buffer 2 ≠ version then
    .emit (.error (.unsupportedVersion (byteAt buffer 2))) (buffer.drop 2)
  else
    let payloadLength := (fromLeBytes (byteAt buffer 6) (byteAt buffer 7)).toNat
    if payloadLength > maxPayload then
      .emit (.error (.payloadTooLarge payloadLength)) (buffer.drop 2)
    else
      let total := headerBytes + payloadLength + crcBytes
      if buffer.length < total then .wait buffer
      else
        let expected :=
          fromLeBytes (byteAt buffer (total - crcBytes)) (byteAt buffer (total - crcBytes + 1))
        let actual := crc16Ccitt (buffer.take (total - crcBytes))
        if actual ≠ expected then
          .emit (.error (.crcMismatch expected actual)) (buffer.drop 1)
        else
          let frameType := FrameType.tryFrom (byteAt buffer 3)
          let sequence := fromLeBytes (byteAt buffer 4) (byteAt buffer 5)
          let payload := (buffer.drop headerBytes).take payloadLength
          .emit (frameType.map fun frameType => ⟨frameType, sequence, payload⟩)
            (buffer.drop total)

/-- The loop body of `feed`. -/
def look (buffer : List UInt8) : Verdict UInt8 (Except WireError Frame) :=
  match findMagic buffer with
  | none =>
      -- the pair may be cut between its two bytes
      if buffer.getLast? = some 0x43 then .wait (buffer.drop (buffer.length - 1))
      else .wait []
  | some magicOffset => inspect (buffer.drop magicOffset)

/-! ## What a look takes -/

theorem inspect_rest_lt {buffer rest : List UInt8} {result : Except WireError Frame}
    (h : inspect buffer = .emit result rest) : rest.length < buffer.length := by
  unfold inspect at h
  split at h
  · cases h
  next hheader =>
    rw [headerBytes] at hheader
    split at h
    · cases h
      rw [List.length_drop]
      omega
    · simp only at h
      split at h
      · cases h
        rw [List.length_drop]
        omega
      · split at h
        · cases h
        · split at h
          · cases h
            rw [List.length_drop]
            omega
          · cases h
            rw [List.length_drop, headerBytes, crcBytes]
            omega

theorem inspect_kept {buffer kept : List UInt8} (h : inspect buffer = .wait kept) :
    kept = buffer := by
  unfold inspect at h
  split at h
  · exact (Verdict.wait.inj h).symm
  · split at h
    · cases h
    · simp only at h
      split at h
      · cases h
      · split at h
        · exact (Verdict.wait.inj h).symm
        · split at h
          · cases h
          · cases h

theorem look_rest_lt {buffer rest : List UInt8} {result : Except WireError Frame}
    (h : look buffer = .emit result rest) : rest.length < buffer.length := by
  unfold look at h
  split at h
  · split at h <;> cases h
  · exact Nat.lt_of_lt_of_le (inspect_rest_lt h) (by rw [List.length_drop]; omega)

theorem look_kept_le {buffer kept : List UInt8} (h : look buffer = .wait kept) :
    kept.length ≤ buffer.length := by
  unfold look at h
  split at h
  · split at h
    · cases h
      rw [List.length_drop]
      omega
    · cases h
      exact Nat.zero_le _
  · rw [inspect_kept h, List.length_drop]
    omega

/-- The decoder as a scanner of its buffer. -/
def decoder : Scanner UInt8 (Except WireError Frame) := ⟨look, look_rest_lt, look_kept_le⟩

/-- `FrameDecoder`: the buffer, and the number of bytes that were drained from it. -/
abbrev FrameDecoder := Cursor UInt8

/-- `FrameDecoder::feed`; each result comes with the position in the stream at which
the scan resumed after it. -/
def FrameDecoder.feed (state : FrameDecoder) (bytes : List UInt8) :
    List (Except WireError Frame × Nat) × FrameDecoder :=
  decoder.feed state bytes

/-- Chunks fed one after another. -/
def FrameDecoder.feedAll (chunks : List (List UInt8)) (state : FrameDecoder) :
    List (Except WireError Frame × Nat) × FrameDecoder :=
  decoder.feedAll chunks state

example : (FrameDecoder.feedAll [[0xff, 0x43], [0x4d, 1, 3, 1, 0], [0, 0, 0xbb, 0xe5]]
    .start).1 = [(.ok ⟨.ping, 1, []⟩, 11)] := by decide +kernel

end Wire
end MicroEmu
