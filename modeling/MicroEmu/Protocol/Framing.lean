import MicroEmu.Library.Chunks
import MicroEmu.Library.Pairs

/-!
# The framing of the JavaScript protocol

A message is a JSON text behind which CRLF stands.  `frameMessage` cuts it into reports,
of 63 bytes on USB and with a report id in front on BLE; the decoder joins the chunks of
reports of either shape and reads a message from every line.

JSON and the encodings of text are the JavaScript runtime's.
-/

namespace MicroEmu
namespace Protocol

/-! ## Constants -/

def reportId : UInt8 := 6

def reportBytesUsb : Nat := 63

def reportBytesBle : Nat := 64

def opcodeData : UInt8 := 0x02

def frameHeaderBytes : Nat := 2

def maxChunkBytes : Nat := reportBytesUsb - frameHeaderBytes

def messageTerminator : List UInt8 := [0x0d, 0x0a]

/-- The default of both limits, 64 KiB. -/
def defaultLimit : Nat := 64 * 1024

/-! ## The runtime -/

/-- What the code uses of the JavaScript runtime, for some type of values and some type
of strings. -/
structure Runtime (Value Text : Type) where
  /-- `JSON.stringify` of an object. -/
  stringify : Value → Text
  /-- `JSON.parse`, which may throw. -/
  parse : Text → Option Value
  /-- Truthy, of type "object", and not an array. -/
  isObject : Value → Bool
  /-- `TextEncoder`. -/
  encode : Text → List UInt8
  /-- A fatal `TextDecoder`, which may throw. -/
  decode : List UInt8 → Option Text

variable {Value Text : Type} (js : Runtime Value Text)

/-- `ProtocolError`. -/
structure ProtocolError where
  code : String
  message : String
  details : List (String × List Nat)
  deriving DecidableEq, Repr

/-! ## Encoding -/

/-- A payload: a string, or any other value. -/
inductive Payload (Value Text : Type) where
  | text (text : Text)
  | value (value : Value)

/-- `serializePayload`. -/
def serializePayload : Payload Value Text → Except ProtocolError Text
  | .text text => .ok text
  | .value value =>
      if js.isObject value then .ok (js.stringify value)
      else .error ⟨"INVALID_PAYLOAD", "A message payload must be a JSON string or object.", []⟩

/-- `joinWithTerminator`. -/
def joinWithTerminator (bytes : List UInt8) : List UInt8 := bytes ++ messageTerminator

/-- The options of `frameMessage`. -/
structure FrameOptions where
  transport : Option String := none
  maxMessageBytes : Option Nat := none
  deriving DecidableEq, Repr

/-- A report of one transport, filled up with zeros. -/
def report (ble : Bool) (chunk : List UInt8) : List UInt8 :=
  let reportBytes := if ble then reportBytesBle else reportBytesUsb
  let front := (if ble then [reportId] else []) ++ opcodeData :: UInt8.ofNat chunk.length :: chunk
  front ++ List.replicate (reportBytes - front.length) 0

/-- `frameMessage`. -/
def frameMessage (payload : Payload Value Text) (options : FrameOptions) :
    Except ProtocolError (List (List UInt8)) := do
  let transport := options.transport.getD "usb"
  if ¬ (transport = "usb" ∨ transport = "ble") then
    .error ⟨"INVALID_TRANSPORT", "Unsupported transport: " ++ transport, []⟩
  else
    let text ← serializePayload js payload
    let maxMessageBytes := options.maxMessageBytes.getD defaultLimit
    let message := joinWithTerminator (js.encode text)
    if message.length > maxMessageBytes then
      .error ⟨"MESSAGE_TOO_LARGE", "Message is " ++ toString message.length ++
        " bytes; limit is " ++ toString maxMessageBytes ++ ".", []⟩
    else
      let ble := transport = "ble"
      .ok ((message.toChunks maxChunkBytes).map (report ble))

/-- `frameJson`. -/
def frameJson (message : Value) (options : FrameOptions) :
    Except ProtocolError (List (List UInt8)) :=
  if js.isObject message then frameMessage js (.text (js.stringify message)) options
  else .error ⟨"INVALID_MESSAGE", "A JSON-RPC message must be an object.", []⟩

/-! ## Decoding -/

/-- What `feed` is given: bytes, an array or a buffer that cannot be read as bytes, with
what reading it throws, or something else. -/
inductive Raw where
  | bytes (report : List UInt8)
  | unreadable (thrown : String)
  | other

/-- `asBytes`, and the `asProtocolError` of what it throws. -/
def asBytes : Raw → Except ProtocolError (List UInt8)
  | .bytes report => .ok report
  | .unreadable thrown => .error ⟨"DECODER_ERROR", thrown, []⟩
  | .other =>
      .error ⟨"INVALID_REPORT_TYPE",
        "A report must be a Uint8Array, ArrayBuffer, or byte array.", []⟩

/-- `FrameDecoder`. -/
structure FrameDecoder where
  buffer : List UInt8
  maxBufferedBytes : Nat
  deriving DecidableEq, Repr

/-- The constructor of `FrameDecoder`. -/
def FrameDecoder.new (maxBufferedBytes : Option Nat) : FrameDecoder :=
  ⟨[], maxBufferedBytes.getD defaultLimit⟩

/-- Messages and errors, as a call returns them. -/
structure Result (Value : Type) where
  messages : List Value
  errors : List ProtocolError

/-- Nothing to return. -/
def Result.empty : Result Value := ⟨[], []⟩

/-- One error. -/
def Result.error (error : ProtocolError) : Result Value := ⟨[], [error]⟩

/-- What one call returned and then another. -/
def Result.append (first second : Result Value) : Result Value :=
  ⟨first.messages ++ second.messages, first.errors ++ second.errors⟩

/-- Where the header of a report starts. -/
def headerOffset (report : List UInt8) : Except ProtocolError Nat :=
  -- the two shapes differ in length, so the order of the checks does not matter
  if report.length = reportBytesBle ∧ report.getD 0 0 = reportId ∧
      report.getD 1 0 = opcodeData then .ok 1
  else if report.length = reportBytesUsb ∧ report.getD 0 0 = opcodeData then .ok 0
  else if report.length ≠ reportBytesUsb ∧ report.length ≠ reportBytesBle then
    .error ⟨"INVALID_REPORT_LENGTH", "Report length " ++ toString report.length ++
      "; expected 63 bytes or 64 with Report ID prefix.", [("actual", [report.length])]⟩
  else
    .error ⟨"INVALID_REPORT_HEADER",
      "Report does not contain the expected Report ID/opcode header.",
      [("firstBytes", (report.take 3).map UInt8.toNat)]⟩

/-- `findCrlf`. -/
def findCrlf (bytes : List UInt8) : Option Nat := Library.findPair 0x0d 0x0a bytes

/-- What becomes of a line that is not empty. -/
def readLine (line : List UInt8) : Result Value :=
  match js.decode line with
  | none =>
      .error ⟨"INVALID_UTF8", "A complete message contained invalid UTF-8 and was discarded.", []⟩
  | some text =>
      match js.parse text with
      | some parsed =>
          if ¬ js.isObject parsed then
            .error ⟨"INVALID_JSON_MESSAGE", "A protocol message must be a JSON object.", []⟩
          else ⟨[parsed], []⟩
      | none =>
          .error ⟨"INVALID_JSON", "A complete CRLF-delimited message was not valid JSON.", []⟩

/-- The line loop of `feed`, with so many turns left. -/
def readLines : Nat → List UInt8 → Result Value × List UInt8
  | 0, buffer => (.empty, buffer)
  | turns + 1, buffer =>
      match findCrlf buffer with
      | none => (.empty, buffer)
      | some last =>
          let line := buffer.take last
          let rest := readLines turns (buffer.drop (last + 2))
          -- an empty line is passed over without an error
          if line.length = 0 then rest else ((readLine js line).append rest.1, rest.2)

/-- `feed` once the header has been found. -/
def FrameDecoder.feedChunk (state : FrameDecoder) (body : List UInt8) :
    Result Value × FrameDecoder :=
  let combined := state.buffer ++ body
  if combined.length > state.maxBufferedBytes then
    -- what comes behind the chunk is read as the start of a line
    (.error ⟨"BUFFER_LIMIT_EXCEEDED", "Buffered message exceeded " ++
        toString state.maxBufferedBytes ++ " bytes and was discarded.", []⟩,
      { state with buffer := [] })
  else
    -- every turn removes a terminator
    let read := readLines js (combined.length + 1) combined
    (read.1, { state with buffer := read.2 })

/-- `feed`. -/
def FrameDecoder.feed (state : FrameDecoder) (raw : Raw) : Result Value × FrameDecoder :=
  match asBytes raw with
  | .error error => (.error error, state)
  | .ok report =>
      match headerOffset report with
      | .error error => (.error error, state)
      | .ok headerOffset =>
          let declaredLength := (report.getD (headerOffset + 1) 0).toNat
          if declaredLength = 0 ∨ declaredLength > maxChunkBytes then
            (.error ⟨"INVALID_CHUNK_LENGTH", "Chunk length " ++ toString declaredLength ++
              "; expected 1-" ++ toString maxChunkBytes ++ ".",
              [("declaredLength", [declaredLength])]⟩, state)
          else
            state.feedChunk js ((report.drop (headerOffset + 2)).take declaredLength)

/-- `finish`. -/
def FrameDecoder.finish (state : FrameDecoder) : Result Value × FrameDecoder :=
  if state.buffer.length = 0 then (.empty, state)
  else
    (.error ⟨"TRUNCATED_MESSAGE", "Stream ended with " ++ toString state.buffer.length ++
      " unterminated bytes.", [("remainingBytes", [state.buffer.length])]⟩,
      { state with buffer := [] })

/-- Reports fed one after another. -/
def FrameDecoder.feedAll : List (List UInt8) → FrameDecoder → Result Value × FrameDecoder
  | [], state => (.empty, state)
  | report :: reports, state =>
      let first := state.feed js (.bytes report)
      let last := feedAll reports first.2
      (first.1.append last.1, last.2)

/-- `decodeReports`. -/
def decodeReports (reports : List (List UInt8)) (maxBufferedBytes : Option Nat) :
    Result Value :=
  let fed := FrameDecoder.feedAll js reports (.new maxBufferedBytes)
  fed.1.append fed.2.finish.1

end Protocol
end MicroEmu
