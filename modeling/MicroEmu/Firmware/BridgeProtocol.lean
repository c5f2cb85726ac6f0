import MicroEmu.Library.Memory

/-!
# The bridge protocol of the firmware

Every access to an array is checked; a step without a result has left its array, or has
run out of turns.  No pointer is null here, and a size stays far below the range of
`size_t`.
-/

namespace MicroEmu
namespace Firmware

open Library (Block)

/-! ## Constants -/

def bridgeMagic0 : UInt8 := 0x43

def bridgeMagic1 : UInt8 := 0x4d

def bridgeVersion : UInt8 := 0x01

def bridgeMaxPayload : Nat := 64

def bridgeHeaderBytes : Nat := 8

def bridgeCrcBytes : Nat := 2

def bridgeMaxFrameBytes : Nat := bridgeHeaderBytes + bridgeMaxPayload + bridgeCrcBytes

/-- The size of the buffer, `BRIDGE_MAX_FRAME_BYTES * 2u`. -/
def bridgeParserBytes : Nat := bridgeMaxFrameBytes * 2

/-! ## Words -/

/-- `read_u16_le`, from the bytes at an index. -/
def readU16Le {size : Nat} (bytes : Block UInt8 size) (index : Nat) : Option UInt16 := do
  let low ← bytes.load index
  let high ← bytes.load (index + 1)
  some (low.toUInt16 ||| (high.toUInt16 <<< 8))

/-- `write_u16_le`, to the bytes at an index. -/
def writeU16Le {size : Nat} (bytes : Block UInt8 size) (index : Nat) (value : UInt16) :
    Option (Block UInt8 size) :=
  bytes.store index [(value &&& 0xff).toUInt8, (value >>> 8).toUInt8]

/-- One bit of the CRC; the arithmetic is that of `unsigned int`. -/
def crcBit (crc : UInt16) : UInt16 :=
  if crc.toUInt32 &&& 0x8000 ≠ 0 then ((crc.toUInt32 <<< 1) ^^^ 0x1021).toUInt16
  else (crc.toUInt32 <<< 1).toUInt16

/-- One byte of the CRC. -/
def crcByte (crc : UInt16) (byte : UInt8) : UInt16 :=
  Nat.repeat crcBit 8 (crc.toUInt32 ^^^ (byte.toUInt32 <<< 8)).toUInt16

/-- `bridge_crc16_ccitt`. -/
def bridgeCrc16Ccitt {size : Nat} (bytes : Block UInt8 size) (length : Nat) : Option UInt16 :=
  (bytes.slice 0 length).map fun bytes => bytes.foldl crcByte 0xffff

/-! ## Frames -/

/-- `bridge_frame_t`. -/
structure BridgeFrame where
  type : UInt8
  sequence : UInt16
  length : UInt16
  payload : Block UInt8 bridgeMaxPayload
  deriving DecidableEq, Repr

/-- What a frame says. -/
structure FrameContent where
  type : UInt8
  sequence : UInt16
  payload : List UInt8
  deriving DecidableEq, Repr

/-- The payload of a frame is as long as it says. -/
def BridgeFrame.content (frame : BridgeFrame) : FrameContent :=
  ⟨frame.type, frame.sequence, frame.payload.cells.take frame.length.toNat⟩

/-- `bridge_frame_encode`; the number of bytes written, and the destination. -/
def bridgeFrameEncode {size : Nat} (frame : BridgeFrame) (destination : Block UInt8 size)
    (capacity : Nat) : Option (Nat × Block UInt8 size) :=
  if frame.length.toNat > bridgeMaxPayload then some (0, destination)
  else
    let total := bridgeHeaderBytes + frame.length.toNat + bridgeCrcBytes
    if capacity < total then some (0, destination)
    else do
      let destination ←
        destination.store 0 [bridgeMagic0, bridgeMagic1, bridgeVersion, frame.type]
      let destination ← writeU16Le destination 4 frame.sequence
      let destination ← writeU16Le destination 6 frame.length
      let payload ← frame.payload.slice 0 frame.length.toNat
      let destination ← destination.store 8 payload
      let crc ← bridgeCrc16Ccitt destination (total - bridgeCrcBytes)
      let destination ← writeU16Le destination (total - bridgeCrcBytes) crc
      some (total, destination)

/-! ## The parser -/

/-- `bridge_parser_t`. -/
structure BridgeParser where
  bytes : Block UInt8 bridgeParserBytes
  length : Nat
  deriving DecidableEq, Repr

/-- `bridge_parser_init`, of a parser in static storage. -/
def bridgeParserInit : BridgeParser := ⟨.fill 0, 0⟩

/-- What a turn of `parse_available` came to, with what it read. -/
inductive ParseEvent where
  | unsupportedVersion (version : UInt8)
  | payloadTooLarge (length : UInt16)
  | crcMismatch (expected actual : UInt16)
  /-- The callback was called. -/
  | frame (frame : BridgeFrame)
  deriving DecidableEq, Repr

/-- `discard_prefix`. -/
def discardPrefix (parser : BridgeParser) (count : Nat) : Option BridgeParser :=
  if count ≥ parser.length then some { parser with length := 0 }
  else
    (parser.bytes.move 0 count (parser.length - count)).map fun bytes =>
      ⟨bytes, parser.length - count⟩

/-- The loop that looks for the magic pair, with so many turns left. -/
def seekMagic (parser : BridgeParser) : Nat → Nat → Option Nat
  | 0, _ => none
  | turns + 1, magic =>
      if magic + 1 < parser.length then do
        let first ← parser.bytes.load magic
        -- the second byte is read only behind a first one that matches
        if first ≠ bridgeMagic0 then seekMagic parser turns (magic + 1)
        else do
          let second ← parser.bytes.load (magic + 1)
          if second ≠ bridgeMagic1 then seekMagic parser turns (magic + 1)
          else some magic
      else some magic

/-- The rest of a turn, once the buffer starts where the search ended. -/
def parseCandidate (parser : BridgeParser) : Option (Option ParseEvent × BridgeParser) :=
  if parser.length < bridgeHeaderBytes then some (none, parser)
  else do
    let version ← parser.bytes.load 2
    if version ≠ bridgeVersion then
      (discardPrefix parser 2).map fun parser => (some (.unsupportedVersion version), parser)
    else do
      let payloadLength ← readU16Le parser.bytes 6
      -- a false magic pair is skipped, but only one byte where the CRC is wrong
      if payloadLength.toNat > bridgeMaxPayload then
        (discardPrefix parser 2).map fun parser => (some (.payloadTooLarge payloadLength), parser)
      else
        let total := bridgeHeaderBytes + payloadLength.toNat + bridgeCrcBytes
        if parser.length < total then some (none, parser)
        else do
          let expected ← readU16Le parser.bytes (total - bridgeCrcBytes)
          let actual ← bridgeCrc16Ccitt parser.bytes (total - bridgeCrcBytes)
          if actual ≠ expected then
            (discardPrefix parser 1).map fun parser =>
              (some (.crcMismatch expected actual), parser)
          else do
            let type ← parser.bytes.load 3
            let sequence ← readU16Le parser.bytes 4
            let bytes ← parser.bytes.slice 8 payloadLength.toNat
            let payload ← (Block.fill 0).store 0 bytes
            (discardPrefix parser total).map fun parser =>
              (some (.frame ⟨type, sequence, payloadLength, payload⟩), parser)

/-- One turn of the loop of `parse_available`; it has ended when there is no event. -/
def parseTurn (parser : BridgeParser) : Option (Option ParseEvent × BridgeParser) :=
  if parser.length < 2 then some (none, parser)
  else do
    let magic ← seekMagic parser parser.length 0
    let parser ← if magic > 0 then discardPrefix parser magic else some parser
    parseCandidate parser

/-- `parse_available`, with so many turns left; each event comes with the length of the
buffer after it. -/
def parseAvailable : Nat → BridgeParser → Option (List (ParseEvent × Nat) × BridgeParser)
  | 0, _ => none
  | turns + 1, parser => do
      let turn ← parseTurn parser
      match turn.1 with
      | none => some ([], turn.2)
      | some event =>
          let last ← parseAvailable turns turn.2
          some ((event, turn.2.length) :: last.1, last.2)

/-! ## Bytes as they arrive -/

/-- A parser, how many bytes it has received, how many of them it has dropped to make
room, and what its turns came to, each with the position in the stream at which the
parser resumed. -/
structure ParserRun where
  parser : BridgeParser
  received : Nat
  forced : Nat
  events : List (ParseEvent × Nat)
  deriving DecidableEq, Repr

/-- A parser that has received nothing. -/
def ParserRun.init : ParserRun := ⟨bridgeParserInit, 0, 0, []⟩

/-- The frames that were handed to the callback. -/
def ParserRun.callbacks (run : ParserRun) : List BridgeFrame :=
  run.events.filterMap fun event =>
    match event.1 with
    | .frame frame => some frame
    | _ => none

/-- `sizeof(parser->bytes) - parser->length`. -/
def available (parser : BridgeParser) : Option Nat :=
  if parser.length ≤ bridgeParserBytes then some (bridgeParserBytes - parser.length) else none

/-- `discard_prefix(parser, 1u)` when the buffer is full. -/
def makeRoom (run : ParserRun) : Option ParserRun := do
  let room ← available run.parser
  if room = 0 then
    (discardPrefix run.parser 1).map fun parser =>
      { run with parser, forced := run.forced + 1 }
  else some run

/-- The rest of a turn of `bridge_parser_feed`, with the bytes that are left after it. -/
def takeChunk (run : ParserRun) (bytes : List UInt8) : Option (ParserRun × List UInt8) := do
  let room ← available run.parser
  let chunk := min bytes.length room
  let stored ← run.parser.bytes.store run.parser.length (bytes.take chunk)
  let length := run.parser.length + chunk
  let received := run.received + chunk
  let parsed ← parseAvailable (length + 1) ⟨stored, length⟩
  let events := parsed.1.map fun event => (event.1, received - event.2)
  some (⟨parsed.2, received, run.forced, run.events ++ events⟩, bytes.drop chunk)

/-- The loop of `bridge_parser_feed`, with so many turns left. -/
def feedTurns : Nat → ParserRun → List UInt8 → Option ParserRun
  | 0, _, _ => none
  | turns + 1, run, bytes =>
      if bytes = [] then some run
      else do
        let run ← makeRoom run
        let next ← takeChunk run bytes
        feedTurns turns next.1 next.2

/-- `bridge_parser_feed`. -/
def bridgeParserFeed (run : ParserRun) (bytes : List UInt8) : Option ParserRun :=
  feedTurns (bytes.length + 1) run bytes

/-- Chunks fed one after another. -/
def bridgeParserFeedAll (chunks : List (List UInt8)) (run : ParserRun) : Option ParserRun :=
  chunks.foldlM bridgeParserFeed run

end Firmware
end MicroEmu
