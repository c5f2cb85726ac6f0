import MicroEmu.Firmware.BridgeProtocol
import MicroEmu.Wire.Checksum
import MicroEmu.Wire.Decoder

/-!
# The two parsers of the bridge agree

The firmware's parser works on the used part of its buffer.  One turn of its loop decides
on that part as the reference does, and keeps one byte of noise, whatever its value.
-/

namespace MicroEmu
namespace Firmware

open Library (AgreeOutside Block Verdict Scanner Cursor)
open Wire (Outcome Noise Decision Reads ReferenceScan FrameDecoder findMagic judge byteAt
  fromLeBytes toLeBytes magic)

/-! ## Words -/

theorem or_shiftLeft_eq (low high : UInt8) :
    low.toUInt16 ||| (high.toUInt16 <<< 8) = fromLeBytes low high := by
  have hlow : low.toNat < 2 ^ 8 := low.toNat_lt
  have hhigh : high.toNat * 2 ^ 8 < 2 ^ 16 := by
    have hbound : high.toNat < 2 ^ 8 := high.toNat_lt
    omega
  have hshift : (high.toUInt16 <<< 8).toNat = 2 ^ 8 * high.toNat := by
    rw [UInt16.toNat_shiftLeft, UInt8.toNat_toUInt16, show (8 : UInt16).toNat % 16 = 8 from rfl,
      Nat.shiftLeft_eq, Nat.mod_eq_of_lt hhigh, Nat.mul_comm]
  apply UInt16.toNat_inj.mp
  rw [Wire.toNat_fromLeBytes, UInt16.toNat_or, UInt8.toNat_toUInt16, hshift, Nat.or_comm,
    ← Nat.two_pow_add_eq_or_of_lt hlow, Nat.add_comm]

theorem writeU16Le_bytes (value : UInt16) :
    [(value &&& 0xff).toUInt8, (value >>> 8).toUInt8] = toLeBytes value := by
  have hlow : (value &&& 0xff).toUInt8 = UInt8.ofNat (value.toNat % 256) := by
    apply UInt8.toNat_inj.mp
    rw [UInt16.toNat_toUInt8, UInt16.toNat_and, UInt8.toNat_ofNat']
    exact congrArg (· % 256) (Nat.and_two_pow_sub_one_eq_mod value.toNat 8)
  have hhigh : (value >>> 8).toUInt8 = UInt8.ofNat (value.toNat / 256) := by
    apply UInt8.toNat_inj.mp
    rw [UInt16.toNat_toUInt8, UInt16.toNat_shiftRight, UInt8.toNat_ofNat']
    exact congrArg (· % 256) (Nat.shiftRight_eq_div_pow value.toNat 8)
  rw [hlow, hhigh, toLeBytes]

theorem crcBit_eq (crc : UInt16) : crcBit crc = Wire.crcBit crc := by
  have hcondition : crc.toUInt32 &&& 0x8000 ≠ 0 ↔ crc &&& 0x8000 ≠ 0 := by
    rw [not_iff_not]
    constructor
    · intro h
      simpa using congrArg UInt32.toUInt16 h
    · intro h
      simpa using congrArg UInt16.toUInt32 h
  have hshift : (crc.toUInt32 <<< 1).toUInt16 = crc <<< 1 := by
    rw [UInt32.toUInt16_shiftLeft _ _ (by decide), UInt16.toUInt16_toUInt32]
    rfl
  have hxor : ((crc.toUInt32 <<< 1) ^^^ 0x1021).toUInt16 = (crc <<< 1) ^^^ 0x1021 := by
    rw [UInt32.toUInt16_xor, hshift]
    rfl
  simp only [crcBit, Wire.crcBit, hcondition, hshift, hxor]

theorem crcByte_eq (crc : UInt16) (byte : UInt8) : crcByte crc byte = Wire.crcByte crc byte := by
  have hbit : crcBit = Wire.crcBit := funext crcBit_eq
  have hbyte : (crc.toUInt32 ^^^ (byte.toUInt32 <<< 8)).toUInt16 =
      crc ^^^ (byte.toUInt16 <<< 8) := by
    rw [UInt32.toUInt16_xor, UInt16.toUInt16_toUInt32, UInt32.toUInt16_shiftLeft _ _ (by decide),
      UInt8.toUInt16_toUInt32]
    rfl
  rw [crcByte, hbyte, hbit]
  rfl

theorem bridgeCrc16Ccitt_eq {size length : Nat} (bytes : Block UInt8 size) (h : length ≤ size) :
    bridgeCrc16Ccitt bytes length = some (Wire.crc16Ccitt (bytes.cells.take length)) := by
  have hbyte : crcByte = Wire.crcByte := funext fun crc => funext (crcByte_eq crc)
  rw [bridgeCrc16Ccitt, bytes.slice_eq (by rwa [Nat.zero_add]), Option.map_some, hbyte,
    List.drop_zero, Wire.crc16Ccitt]

/-- Two strings of one length that differ in a burst of at most sixteen bits have different
checksums, and the firmware computes the same checksum of every string. -/
theorem checksums_detect_bursts_and_agree :
    (∀ (first second : List UInt8) (start size : Nat), size ≤ 16 →
      first.length = second.length → first ≠ second →
        AgreeOutside start size (Wire.bitsOf first) (Wire.bitsOf second) →
          Wire.crc16Ccitt first ≠ Wire.crc16Ccitt second) ∧
      ∀ (size length : Nat) (bytes : Block UInt8 size), length ≤ size →
        bridgeCrc16Ccitt bytes length = some (Wire.crc16Ccitt (bytes.cells.take length)) :=
  ⟨fun _ _ _ _ hsize hlength hne hburst => Wire.crc16Ccitt_ne_of_burst hsize hlength hne hburst,
    fun _ _ bytes h => bridgeCrc16Ccitt_eq bytes h⟩

/-- Sixteen bits over three bytes are flipped. -/
theorem checksums_detect_bursts_and_agree_flipped :
    Wire.crc16Ccitt [0x31, 0x32, 0x33, 0x34] ≠ Wire.crc16Ccitt [0x31, 0x3d, 0xcc, 0xc4] ∧
      bridgeCrc16Ccitt (⟨[0x31, 0x32, 0x33, 0x34], rfl⟩ : Block UInt8 4) 3 =
        some (Wire.crc16Ccitt [0x31, 0x32, 0x33]) :=
  ⟨checksums_detect_bursts_and_agree.1 _ _ 12 16 (Nat.le_refl 16) rfl (by decide) (by decide),
    checksums_detect_bursts_and_agree.2 4 3 _ (by decide)⟩

/-! ## The used part of the buffer -/

namespace BridgeParser

/-- The used part of the buffer. -/
def contents (parser : BridgeParser) : List UInt8 := parser.bytes.cells.take parser.length

/-- The used part is a part of the buffer. -/
def Fits (parser : BridgeParser) : Prop := parser.length ≤ bridgeParserBytes

theorem length_contents {parser : BridgeParser} (h : parser.Fits) :
    parser.contents.length = parser.length := by
  rw [contents, List.length_take, parser.bytes.length_cells]
  exact Nat.min_eq_left h

theorem load_eq {parser : BridgeParser} (h : parser.Fits) {index : Nat}
    (hindex : index < parser.length) :
    parser.bytes.load index = some (byteAt parser.contents index) := by
  rw [parser.bytes.load_eq (Nat.lt_of_lt_of_le hindex h) 0, byteAt, contents,
    List.getD_eq_getElem?_getD, List.getD_eq_getElem?_getD, List.getElem?_take_of_lt hindex]

theorem readU16Le_eq {parser : BridgeParser} (h : parser.Fits) {index : Nat}
    (hindex : index + 1 < parser.length) :
    readU16Le parser.bytes index =
      some (fromLeBytes (byteAt parser.contents index) (byteAt parser.contents (index + 1))) := by
  rw [readU16Le, load_eq h (Nat.lt_of_succ_lt hindex), load_eq h hindex]
  exact congrArg some (or_shiftLeft_eq _ _)

theorem bridgeCrc16Ccitt_eq {parser : BridgeParser} (h : parser.Fits) {length : Nat}
    (hlength : length ≤ parser.length) :
    bridgeCrc16Ccitt parser.bytes length =
      some (Wire.crc16Ccitt (parser.contents.take length)) := by
  rw [Firmware.bridgeCrc16Ccitt_eq parser.bytes (Nat.le_trans hlength h), contents,
    List.take_take, Nat.min_eq_left hlength]

theorem exists_discardPrefix {parser : BridgeParser} (h : parser.Fits) (count : Nat) :
    ∃ rest, discardPrefix parser count = some rest ∧ rest.Fits ∧
      rest.contents = parser.contents.drop count := by
  unfold discardPrefix
  by_cases hcount : count ≥ parser.length
  · refine ⟨_, if_pos hcount, Nat.zero_le _, ?_⟩
    rw [contents, List.take_zero, List.drop_eq_nil_of_le]
    rwa [length_contents h]
  · obtain ⟨moved, hmoved, hcells⟩ :=
      parser.bytes.exists_move_front (Nat.le_of_not_le hcount) h
    refine ⟨⟨moved, parser.length - count⟩, ?_, ?_, hcells⟩
    · rw [if_neg hcount, hmoved, Option.map_some]
    · exact Nat.le_trans (Nat.sub_le _ _) h

end BridgeParser

/-! ## One turn -/

/-- What an event reports; of the payload's array, the part that was read. -/
def ParseEvent.outcome : ParseEvent → Outcome
  | .unsupportedVersion version => .unsupportedVersion version
  | .payloadTooLarge length => .payloadTooLarge length
  | .crcMismatch expected actual => .crcMismatch expected actual
  | .frame handed =>
      .frame handed.type handed.sequence (handed.payload.cells.take handed.length.toNat)

/-- A turn came to what a verdict on the used part says. -/
inductive TurnMatches : Verdict UInt8 Outcome → Option ParseEvent × BridgeParser → Prop where
  | wait {parser : BridgeParser} (hfits : parser.Fits) :
      TurnMatches (.wait parser.contents) (none, parser)
  | emit {event : ParseEvent} {parser : BridgeParser} (hfits : parser.Fits) :
      TurnMatches (.emit event.outcome parser.contents) (some event, parser)

/-- A turn that discards after it has read what it reports. -/
theorem exists_discarded {parser : BridgeParser} (h : parser.Fits) (event : ParseEvent)
    (count : Nat) :
    ∃ turn, ((discardPrefix parser count).map fun parser => (some event, parser)) = some turn ∧
      TurnMatches (.emit event.outcome (parser.contents.drop count)) turn := by
  obtain ⟨rest, hrest, hfits, hcontents⟩ := BridgeParser.exists_discardPrefix h count
  rw [hrest, ← hcontents]
  exact ⟨_, rfl, .emit hfits⟩

theorem exists_payload {bytes : List UInt8} (h : bytes.length ≤ bridgeMaxPayload) :
    ∃ payload : Block UInt8 bridgeMaxPayload, (Block.fill 0).store 0 bytes = some payload ∧
      payload.cells.take bytes.length = bytes := by
  have hfits : 0 + bytes.length ≤ bridgeMaxPayload := by rwa [Nat.zero_add]
  obtain ⟨payload, hpayload, hcells⟩ := (Block.fill (0 : UInt8)).exists_store_append hfits
  rw [Nat.zero_add, List.take_zero, List.nil_append] at hcells
  exact ⟨payload, hpayload, hcells⟩

/-- A turn that hands on a frame that is wholly there. -/
theorem exists_frame {parser : BridgeParser} (h : parser.Fits) {payloadLength : UInt16}
    (hpayload : payloadLength.toNat ≤ bridgeMaxPayload)
    (hwhole : Wire.headerBytes + payloadLength.toNat + 2 ≤ parser.length) :
    ∃ turn, ((parser.bytes.load 3).bind fun type =>
      (readU16Le parser.bytes 4).bind fun sequence =>
      (parser.bytes.slice 8 payloadLength.toNat).bind fun bytes =>
      ((Block.fill 0).store 0 bytes).bind fun payload =>
        (discardPrefix parser (Wire.headerBytes + payloadLength.toNat + Wire.crcBytes)).map
          fun parser => (some (.frame ⟨type, sequence, payloadLength, payload⟩), parser)) =
        some turn ∧
      TurnMatches
        (.emit
          (.frame (byteAt parser.contents 3)
            (fromLeBytes (byteAt parser.contents 4) (byteAt parser.contents 5))
            ((parser.contents.drop Wire.headerBytes).take payloadLength.toNat))
          (parser.contents.drop (Wire.headerBytes + payloadLength.toNat + Wire.crcBytes)))
        turn := by
  have hlong : 8 + payloadLength.toNat + 2 ≤ parser.length := hwhole
  have hfits : 8 + payloadLength.toNat ≤ bridgeParserBytes :=
    Nat.le_trans (Nat.le_of_add_right_le hlong) h
  have hbytes : (parser.bytes.cells.drop 8).take payloadLength.toNat =
      (parser.contents.drop Wire.headerBytes).take payloadLength.toNat := by
    rw [BridgeParser.contents, List.drop_take, List.take_take, Wire.headerBytes, Nat.min_eq_left]
    omega
  have hcount : ((parser.contents.drop Wire.headerBytes).take payloadLength.toNat).length =
      payloadLength.toNat := by
    rw [List.length_take, List.length_drop, BridgeParser.length_contents h, Wire.headerBytes]
    omega
  obtain ⟨payload, hstore, hcells⟩ := exists_payload (hcount.trans_le hpayload)
  rw [BridgeParser.load_eq h (show 3 < parser.length by omega),
    BridgeParser.readU16Le_eq h (show 4 + 1 < parser.length by omega),
    parser.bytes.slice_eq hfits, hbytes]
  simp only [Option.bind_some, hstore]
  obtain ⟨turn, hturn, hmatches⟩ := exists_discarded h
    (.frame ⟨byteAt parser.contents 3, fromLeBytes (byteAt parser.contents 4)
      (byteAt parser.contents (4 + 1)), payloadLength, payload⟩)
    (Wire.headerBytes + payloadLength.toNat + Wire.crcBytes)
  refine ⟨turn, hturn, ?_⟩
  rw [hcount] at hcells
  rw [← hcells]
  exact hmatches

theorem exists_parseCandidate {parser : BridgeParser} (h : parser.Fits) :
    ∃ turn, parseCandidate parser = some turn ∧ TurnMatches (judge parser.contents) turn := by
  have hlength := BridgeParser.length_contents h
  have hconstants : bridgeHeaderBytes = Wire.headerBytes ∧ bridgeCrcBytes = Wire.crcBytes ∧
      bridgeMaxPayload = Wire.maxPayload ∧ bridgeVersion = Wire.version := ⟨rfl, rfl, rfl, rfl⟩
  have htotal (length : Nat) : Wire.headerBytes + length + Wire.crcBytes - Wire.crcBytes =
      Wire.headerBytes + length := Nat.add_sub_cancel _ _
  unfold parseCandidate judge
  rw [hlength]
  simp only [hconstants, htotal]
  split
  · exact ⟨_, rfl, .wait h⟩
  next hheader =>
    have hlong : 8 ≤ parser.length := Nat.le_of_not_lt hheader
    rw [BridgeParser.load_eq h (show 2 < parser.length by omega)]
    simp only [Option.bind_eq_bind, Option.bind_some]
    by_cases hversion : byteAt parser.contents 2 ≠ Wire.version
    · rw [if_pos hversion, if_pos hversion]
      exact exists_discarded h (.unsupportedVersion _) 2
    · rw [if_neg hversion, if_neg hversion]
      have hpayloadLength : readU16Le parser.bytes 6 =
          some (fromLeBytes (byteAt parser.contents 6) (byteAt parser.contents 7)) :=
        BridgeParser.readU16Le_eq h (show 6 + 1 < parser.length by omega)
      rw [hpayloadLength]
      generalize fromLeBytes (byteAt parser.contents 6) (byteAt parser.contents 7) = payloadLength
      simp only [Option.bind_some]
      split
      · exact exists_discarded h (.payloadTooLarge payloadLength) 2
      next hpayload =>
        split
        · exact ⟨_, rfl, .wait h⟩
        next hshort =>
          have hwhole : Wire.headerBytes + payloadLength.toNat + 2 ≤ parser.length :=
            Nat.le_of_not_lt hshort
          rw [BridgeParser.readU16Le_eq h (by omega),
            BridgeParser.bridgeCrc16Ccitt_eq h (by omega)]
          simp only [Option.bind_some]
          split
          · exact exists_discarded h (.crcMismatch _ _) 1
          · exact exists_frame h (Nat.le_of_not_lt hpayload) hwhole

/-- Where the search ends: at the magic pair, or at the last byte. -/
def magicOrLast (buffer : List UInt8) : Nat := (findMagic buffer).getD (buffer.length - 1)

theorem magicOrLast_here (rest : List UInt8) :
    magicOrLast (bridgeMagic0 :: bridgeMagic1 :: rest) = 0 := rfl

theorem magicOrLast_next {first second : UInt8} {rest : List UInt8}
    (h : ¬ (first = bridgeMagic0 ∧ second = bridgeMagic1)) :
    magicOrLast (first :: second :: rest) = magicOrLast (second :: rest) + 1 := by
  have hnext : findMagic (first :: second :: rest) =
      (findMagic (second :: rest)).map (· + 1) := Library.findPair_cons h
  rw [magicOrLast, magicOrLast, hnext]
  cases findMagic (second :: rest) with
  | none => rfl
  | some offset => rfl

theorem seekMagic_eq {parser : BridgeParser} (h : parser.Fits) {magic : Nat}
    (hmagic : magic < parser.length) (turns : Nat) (hturns : parser.length ≤ magic + turns) :
    seekMagic parser turns magic = some (magic + magicOrLast (parser.contents.drop magic)) := by
  have hlength := BridgeParser.length_contents h
  induction turns generalizing magic with
  | zero => omega
  | succ turns ih =>
      have hbyte {index : Nat} (hindex : index < parser.length) :
          parser.contents.drop index =
            byteAt parser.contents index :: parser.contents.drop (index + 1) := by
        rw [← hlength] at hindex
        rw [List.drop_eq_getElem_cons hindex, byteAt, List.getD_eq_getElem?_getD,
          List.getElem?_eq_getElem hindex, Option.getD_some]
      rw [seekMagic]
      by_cases hnext : magic + 1 < parser.length
      · have hlater := ih hnext (by omega)
        have hcandidate : parser.contents.drop magic = byteAt parser.contents magic ::
            byteAt parser.contents (magic + 1) :: parser.contents.drop (magic + 1 + 1) := by
          rw [hbyte hmagic, hbyte hnext]
        rw [if_pos hnext, BridgeParser.load_eq h hmagic, BridgeParser.load_eq h hnext, hcandidate]
        simp only [Option.bind_eq_bind, Option.bind_some]
        rw [hbyte hnext, Nat.add_right_comm] at hlater
        -- the condition of the loop: one of the two bytes is not of the magic
        split
        next hfirst =>
          rw [hlater, magicOrLast_next fun hpair => hfirst hpair.1]
          rfl
        next hfirst =>
          split
          next hsecond =>
            rw [hlater, magicOrLast_next fun hpair => hsecond hpair.2]
            rfl
          next hsecond =>
            rw [not_not.mp hfirst, not_not.mp hsecond, magicOrLast_here]
            rfl
      · have hend : parser.contents.drop (magic + 1) = [] :=
          List.drop_eq_nil_of_le (by omega)
        rw [if_neg hnext, hbyte hmagic, hend]
        rfl

/-- One turn on the used part. -/
def read (buffer : List UInt8) : Verdict UInt8 Outcome :=
  judge (buffer.drop (magicOrLast buffer))

theorem exists_parseTurn {parser : BridgeParser} (h : parser.Fits) :
    ∃ turn, parseTurn parser = some turn ∧ TurnMatches (read parser.contents) turn := by
  have hlength := BridgeParser.length_contents h
  by_cases hshort : parser.length < 2
  -- the loop is not entered, and the only byte stays
  · have hmagic : magicOrLast parser.contents = 0 := by
      rw [magicOrLast, Wire.findMagic_of_noise (Noise.of_length_lt (hlength.trans_lt hshort)),
        hlength, Option.getD_none]
      omega
    have hheader : parser.contents.length < Wire.headerBytes :=
      (hlength.trans_lt hshort).trans (by decide)
    rw [parseTurn, if_pos hshort, read, hmagic, List.drop_zero, judge, if_pos hheader]
    exact ⟨_, rfl, .wait h⟩
  · have hmagic : seekMagic parser parser.length 0 = some (magicOrLast parser.contents) := by
      have hseek := seekMagic_eq h (show 0 < parser.length by omega) parser.length
        (Nat.le_of_eq (Nat.zero_add _).symm)
      rwa [List.drop_zero, Nat.zero_add] at hseek
    rw [parseTurn, if_neg hshort, hmagic, read]
    simp only [Option.bind_eq_bind, Option.bind_some]
    -- noise in front is discarded before the candidate is looked at
    split
    · obtain ⟨rest, hrest, hfits, hcontents⟩ := BridgeParser.exists_discardPrefix h
        (magicOrLast parser.contents)
      rw [hrest, ← hcontents]
      exact exists_parseCandidate hfits
    next hzero =>
      rw [Nat.eq_zero_of_not_pos hzero, List.drop_zero]
      exact exists_parseCandidate h

/-! ## The parser computes the reference scan -/

theorem magicOrLast_of_noise {noise : List UInt8} (h : Noise noise) :
    noise.drop (magicOrLast noise) = noise.getLast?.toList := by
  rw [magicOrLast, Wire.findMagic_of_noise h, Option.getD_none]
  rcases List.eq_nil_or_concat' noise with rfl | ⟨front, last, rfl⟩
  · rfl
  · rw [List.length_append, List.length_singleton, Nat.add_sub_cancel, List.drop_left,
      List.getLast?_append, List.getLast?_singleton]
    rfl

theorem read_of_noise {noise : List UInt8} (h : Noise noise) :
    read noise = .wait noise.getLast?.toList := by
  rw [read, magicOrLast_of_noise h, judge, if_pos]
  cases noise.getLast? with
  | none => decide
  | some last => exact (show 1 < 8 by decide)

theorem read_candidate {noise candidate : List UInt8} {verdict : Verdict UInt8 Outcome}
    (hnoise : Noise noise) (h : Decision candidate verdict) :
    read (noise ++ candidate) = verdict := by
  obtain ⟨body, rfl⟩ := h.exists_body
  rw [read, magicOrLast, Wire.findMagic_append hnoise, Option.getD_some, List.drop_left,
    Wire.judge_eq h]

theorem read_rest_lt {buffer rest : List UInt8} {outcome : Outcome}
    (h : read buffer = .emit outcome rest) : rest.length < buffer.length := by
  rcases Wire.noise_or_magic buffer with hnoise | ⟨noise, body, hnoise, rfl⟩
  · rw [read_of_noise hnoise] at h
    cases h
  · obtain ⟨verdict, hdecision⟩ := Wire.exists_decision body
    rw [read_candidate hnoise hdecision] at h
    subst h
    rw [List.length_append]
    exact Nat.lt_add_left _ hdecision.rest_lt

theorem read_kept_le {buffer kept : List UInt8} (h : read buffer = .wait kept) :
    kept.length ≤ buffer.length := by
  rcases Wire.noise_or_magic buffer with hnoise | ⟨noise, body, hnoise, rfl⟩
  · rw [read_of_noise hnoise] at h
    obtain rfl := Verdict.wait.inj h
    rw [← magicOrLast_of_noise hnoise, List.length_drop]
    exact Nat.sub_le _ _
  · obtain ⟨verdict, hdecision⟩ := Wire.exists_decision body
    rw [read_candidate hnoise hdecision] at h
    subst h
    obtain ⟨rfl, -⟩ := hdecision.kept
    exact (List.suffix_append noise _).length_le

/-- The turns of the parser as a scanner of the used part. -/
def reader : Scanner UInt8 Outcome := ⟨read, read_rest_lt, read_kept_le⟩

theorem reader_reads : Reads reader Option.toList id where
  keep_none := rfl
  keep_magic := rfl
  keep_some := fun _ => .inl rfl
  noise := read_of_noise
  candidate := by
    intro noise candidate verdict hnoise h
    show read (noise ++ candidate) = verdict.map id
    rw [read_candidate hnoise h]
    cases verdict <;> rfl

/-! ## A run of the parser -/

/-- A run that has come to where the reader is, and has found what it found, without
dropping bytes to make room. -/
structure Follows (run : ParserRun) (cursor : Cursor UInt8) (found : List (Outcome × Nat)) :
    Prop where
  fits : run.parser.Fits
  contents : run.parser.contents = cursor.buffer
  received : run.received = cursor.position + cursor.buffer.length
  events : run.events.map (fun event => (event.1.outcome, event.2)) = found
  forced : run.forced = 0

theorem exists_parseAvailable (cursor : Cursor UInt8) {parser : BridgeParser} (h : parser.Fits)
    (hcontents : parser.contents = cursor.buffer) {turns : Nat}
    (hturns : cursor.buffer.length < turns) :
    ∃ parsed, parseAvailable turns parser = some parsed ∧ parsed.2.Fits ∧
      parsed.2.contents = (reader.scan cursor).2.buffer ∧
      parsed.1.map (fun event =>
          (event.1.outcome, cursor.position + cursor.buffer.length - event.2)) =
        (reader.scan cursor).1 := by
  induction cursor using Scanner.scan_induction reader generalizing parser turns with
  | wait cursor kept hlook =>
      obtain ⟨turns, rfl⟩ := Nat.exists_eq_add_of_lt hturns
      obtain ⟨turn, hturn, hmatches⟩ := exists_parseTurn h
      rw [hcontents, show read cursor.buffer = .wait kept from hlook] at hmatches
      cases hmatches with
      | wait hfits =>
          rw [parseAvailable, hturn, Scanner.scan_of_wait _ hlook]
          exact ⟨_, rfl, hfits, rfl, rfl⟩
  | emit cursor result rest hlook ih =>
      obtain ⟨turns, rfl⟩ := Nat.exists_eq_add_of_lt hturns
      obtain ⟨turn, hturn, hmatches⟩ := exists_parseTurn h
      rw [hcontents, show read cursor.buffer = .emit result rest from hlook] at hmatches
      have hshorter := reader.rest_lt hlook
      cases hmatches with
      | @emit event parser hfits =>
          -- the position of an event is counted back from the end of what has come
          have hlength : (Scanner.advance cursor parser.contents).buffer.length = parser.length :=
            BridgeParser.length_contents hfits
          have htotal := Scanner.advance_position cursor (Nat.le_of_lt hshorter)
          obtain ⟨parsed, hparsed, hrest, hbuffer, hevents⟩ := ih hfits rfl
            (show parser.contents.length < cursor.buffer.length + turns by omega)
          have hposition : cursor.position + cursor.buffer.length - parser.length =
              (Scanner.advance cursor parser.contents).position := by
            omega
          rw [htotal] at hevents
          refine ⟨((event, parser.length) :: parsed.1, parsed.2), ?_, hrest, ?_, ?_⟩
          · rw [parseAvailable, hturn]
            simp only [Option.bind_eq_bind, Option.bind_some, hparsed]
          · rw [Scanner.scan_of_emit _ hlook]
            exact hbuffer
          · rw [Scanner.scan_of_emit _ hlook, List.map_cons, hevents, hposition]

namespace Follows

variable {run : ParserRun} {cursor : Cursor UInt8} {found : List (Outcome × Nat)}

theorem length_eq (h : Follows run cursor found) :
    run.parser.length = cursor.buffer.length := by
  rw [← h.contents, BridgeParser.length_contents h.fits]

theorem exists_available (h : Follows run cursor found) :
    available run.parser = some (bridgeParserBytes - cursor.buffer.length) := by
  have hfits : run.parser.length ≤ bridgeParserBytes := h.fits
  rw [available, if_pos hfits, h.length_eq]

/-- With less than a frame in the buffer, no byte is dropped to make room. -/
theorem makeRoom_eq (h : Follows run cursor found)
    (hroom : cursor.buffer.length < bridgeParserBytes) : makeRoom run = some run := by
  have hpositive : bridgeParserBytes - cursor.buffer.length ≠ 0 := by omega
  rw [makeRoom, h.exists_available]
  simp only [Option.bind_eq_bind, Option.bind_some]
  exact if_neg hpositive

theorem exists_takeChunk (h : Follows run cursor found) (bytes : List UInt8) :
    let chunk := min bytes.length (bridgeParserBytes - cursor.buffer.length)
    ∃ next, takeChunk run bytes = some (next, bytes.drop chunk) ∧
      Follows next (reader.feed cursor (bytes.take chunk)).2
        (found ++ (reader.feed cursor (bytes.take chunk)).1) := by
  intro chunk
  have hchunk : chunk ≤ bridgeParserBytes - cursor.buffer.length := Nat.min_le_right _ _
  have htaken : (bytes.take chunk).length = chunk :=
    List.length_take_of_le (Nat.min_le_left _ _)
  have hlength := h.length_eq
  have hfits : run.parser.length ≤ bridgeParserBytes := h.fits
  obtain ⟨stored, hstored, hcells⟩ := run.parser.bytes.exists_store_append
    (show run.parser.length + (bytes.take chunk).length ≤ bridgeParserBytes by omega)
  rw [htaken] at hcells
  have hcontents : BridgeParser.contents ⟨stored, run.parser.length + chunk⟩ =
      cursor.buffer ++ bytes.take chunk := by
    rw [← h.contents]
    exact hcells
  have hlonger : (cursor.buffer ++ bytes.take chunk).length = run.parser.length + chunk := by
    rw [List.length_append, htaken, hlength]
  obtain ⟨parsed, hparsed, hrest, hbuffer, hevents⟩ :=
    exists_parseAvailable ⟨cursor.position, cursor.buffer ++ bytes.take chunk⟩
      (show BridgeParser.Fits ⟨stored, run.parser.length + chunk⟩ from
        show run.parser.length + chunk ≤ bridgeParserBytes by omega)
      hcontents (Nat.lt_succ_of_le (Nat.le_of_eq hlonger))
  have htotal : cursor.position + (cursor.buffer ++ bytes.take chunk).length =
      run.received + chunk := by
    rw [hlonger, hlength, h.received, Nat.add_assoc]
  rw [htotal] at hevents
  refine ⟨⟨parsed.2, run.received + chunk, run.forced, run.events ++ parsed.1.map fun event =>
    (event.1, run.received + chunk - event.2)⟩, ?_, ⟨hrest, hbuffer, ?_, ?_, h.forced⟩⟩
  · rw [takeChunk, h.exists_available]
    simp only [Option.bind_eq_bind, Option.bind_some]
    rw [hstored]
    simp only [Option.bind_some]
    rw [hparsed]
    rfl
  · have hposition := Scanner.scan_position reader
      ⟨cursor.position, cursor.buffer ++ bytes.take chunk⟩
    exact htotal.symm.trans hposition.symm
  · rw [List.map_append, h.events, List.map_map]
    exact congrArg (found ++ ·) hevents

/-- A settled run takes any bytes. -/
theorem exists_feedTurns (h : Follows run cursor found)
    (hsettled : reader.look cursor.buffer = .wait cursor.buffer) (bytes : List UInt8)
    {turns : Nat} (hturns : bytes.length < turns) :
    ∃ next, feedTurns turns run bytes = some next ∧
      Follows next (reader.feed cursor bytes).2 (found ++ (reader.feed cursor bytes).1) := by
  induction turns generalizing run cursor found bytes with
  | zero => exact absurd hturns (Nat.not_lt_zero _)
  | succ turns ih =>
      rw [feedTurns]
      by_cases hbytes : bytes = []
      · subst hbytes
        rw [if_pos rfl, Scanner.feed_nil hsettled, List.append_nil]
        exact ⟨run, rfl, h⟩
      -- less than one frame is left over, so the next chunk takes at least one byte
      · have hroom : cursor.buffer.length < bridgeParserBytes :=
          (reader_reads.length_kept hsettled).trans (by decide)
        have hpositive : 0 < bytes.length := List.length_pos_iff.mpr hbytes
        obtain ⟨next, hnext, hfollows⟩ := h.exists_takeChunk bytes
        have hlater := Scanner.look_scan reader_reads.incremental.look_kept
          ⟨cursor.position, cursor.buffer ++
            bytes.take (min bytes.length (bridgeParserBytes - cursor.buffer.length))⟩
        have hfewer : (bytes.drop (min bytes.length
            (bridgeParserBytes - cursor.buffer.length))).length < turns := by
          rw [List.length_drop]
          omega
        obtain ⟨last, hlast, hrest⟩ := ih hfollows hlater _ hfewer
        refine ⟨last, ?_, ?_⟩
        · rw [if_neg hbytes, h.makeRoom_eq hroom]
          simp only [Option.bind_eq_bind, Option.bind_some]
          rw [hnext]
          exact hlast
        · rw [List.append_assoc] at hrest
          have hsplit := reader_reads.incremental.feed_append cursor
            (bytes.take (min bytes.length (bridgeParserBytes - cursor.buffer.length)))
            (bytes.drop (min bytes.length (bridgeParserBytes - cursor.buffer.length)))
          rw [List.take_append_drop] at hsplit
          rw [hsplit]
          exact hrest

theorem exists_feedAll (h : Follows run cursor found)
    (hsettled : reader.look cursor.buffer = .wait cursor.buffer) (chunks : List (List UInt8)) :
    ∃ last, bridgeParserFeedAll chunks run = some last ∧
      Follows last (reader.feedAll chunks cursor).2
        (found ++ (reader.feedAll chunks cursor).1) := by
  induction chunks generalizing run cursor found with
  | nil =>
      rw [Scanner.feedAll, List.append_nil]
      exact ⟨run, rfl, h⟩
  | cons chunk chunks ih =>
      obtain ⟨next, hnext, hfollows⟩ := h.exists_feedTurns hsettled chunk (Nat.lt_succ_self _)
      obtain ⟨last, hlast, hrest⟩ := ih hfollows
        (Scanner.look_scan reader_reads.incremental.look_kept _)
      refine ⟨last, ?_, ?_⟩
      · rw [bridgeParserFeedAll, List.foldlM_cons, bridgeParserFeed, hnext]
        exact hlast
      · rw [List.append_assoc] at hrest
        exact hrest

end Follows

theorem follows_init : Follows .init .start [] where
  fits := Nat.zero_le _
  contents := rfl
  received := rfl
  events := rfl
  forced := rfl

/-- However a stream is cut, the parser computes its reference scan inside its buffer. -/
theorem exists_parser_run (chunks : List (List UInt8)) {outcomes : List (Outcome × Nat)}
    (h : ReferenceScan 0 chunks.flatten outcomes) :
    ∃ run, bridgeParserFeedAll chunks .init = some run ∧
      run.events.map (fun event => (event.1.outcome, event.2)) = outcomes ∧ run.forced = 0 := by
  obtain ⟨run, hrun, hfollows⟩ := follows_init.exists_feedAll rfl chunks
  refine ⟨run, hrun, ?_, hfollows.forced⟩
  rw [hfollows.events, List.nil_append, reader_reads.feedAll_eq chunks h]
  exact List.map_id _

/-! ## Agreement -/

/-- What the decoder returns for a frame that the firmware's callback is handed. -/
def BridgeFrame.result (handed : BridgeFrame) : Except Wire.WireError Wire.Frame :=
  (Wire.FrameType.tryFrom handed.type).map fun frameType =>
    ⟨frameType, handed.sequence, handed.payload.cells.take handed.length.toNat⟩

/-- The results that stand for a frame with a right CRC. -/
def isFrame : Except Wire.WireError Wire.Frame → Bool
  | .ok _ => true
  | .error (.unknownFrameType _) => true
  | .error _ => false

theorem isFrame_result (handed : BridgeFrame) : isFrame handed.result = true := by
  rw [BridgeFrame.result, Wire.FrameType.tryFrom]
  repeat' split
  all_goals rfl

theorem callbacks_eq (run : ParserRun) :
    run.callbacks.map BridgeFrame.result =
      (run.events.map fun event => event.1.outcome.result).filter isFrame := by
  rw [ParserRun.callbacks]
  induction run.events with
  | nil => rfl
  | cons event events ih =>
      obtain ⟨event, position⟩ := event
      cases event with
      | unsupportedVersion version => exact ih
      | payloadTooLarge length => exact ih
      | crcMismatch expected actual => exact ih
      | frame handed =>
          exact (congrArg (handed.result :: ·) ih).trans
            (List.filter_cons_of_pos (isFrame_result handed)).symm

/-- The firmware's parser and the decoder agree on every stream, however each of the two
receives it.  The parser stays inside its buffer and never has to make room; its events
are the decoder's results, at the same positions, and the frames it hands to its callback
are those that the decoder returns or reports as being of an unknown type. -/
theorem parsers_agree (firmware bridge : List (List UInt8))
    (h : firmware.flatten = bridge.flatten) :
    ∃ run, bridgeParserFeedAll firmware .init = some run ∧
      run.events.map (fun event => (event.1.outcome.result, event.2)) =
        (FrameDecoder.feedAll bridge .start).1 ∧
      run.callbacks.map BridgeFrame.result =
        ((FrameDecoder.feedAll bridge .start).1.map Prod.fst).filter isFrame ∧
      run.forced = 0 := by
  obtain ⟨outcomes, hscan⟩ := Wire.exists_referenceScan 0 bridge.flatten
  obtain ⟨run, hrun, hevents, hforced⟩ := exists_parser_run firmware (h ▸ hscan)
  have hresults : run.events.map (fun event => (event.1.outcome.result, event.2)) =
      (FrameDecoder.feedAll bridge .start).1 := by
    have hdecoder : (FrameDecoder.feedAll bridge .start).1 =
        outcomes.map fun found => (found.1.result, found.2) :=
      Wire.decoder_reads.feedAll_eq bridge hscan
    rw [hdecoder, ← hevents, List.map_map]
    rfl
  refine ⟨run, hrun, hresults, ?_, hforced⟩
  rw [callbacks_eq, ← hresults, List.map_map]
  rfl

/-- A frame of an unknown type, in one piece and in three. -/
theorem parsers_agree_unknown_type :
    ∃ run, bridgeParserFeedAll [Wire.encoded 9 7 [0x43, 0x4d]] .init = some run ∧
      run.events.map (fun event => (event.1.outcome.result, event.2)) =
        (FrameDecoder.feedAll [(Wire.encoded 9 7 [0x43, 0x4d]).take 3,
          (Wire.encoded 9 7 [0x43, 0x4d]).drop 3, []] .start).1 ∧
      run.callbacks.map BridgeFrame.result =
        ((FrameDecoder.feedAll [(Wire.encoded 9 7 [0x43, 0x4d]).take 3,
          (Wire.encoded 9 7 [0x43, 0x4d]).drop 3, []] .start).1.map Prod.fst).filter isFrame ∧
      run.forced = 0 :=
  parsers_agree _ _ (by decide +kernel)

end Firmware
end MicroEmu
