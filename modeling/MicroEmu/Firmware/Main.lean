import MicroEmu.Codex.Decoder
import MicroEmu.Firmware.BridgeProtocol
import MicroEmu.Library.Ring

/-!
# The main module of the firmware

Frames of the bridge and HID reports of the host are handled by callbacks, which put
reports into one queue and frames into another.  A step without a result has left an
array, has run out of turns, or has overflowed an `int`.  No `int` is negative here.
-/

namespace MicroEmu
namespace Firmware

open Library (Block)

/-! ## Constants -/

def reportQueueCapacity : Nat := 8

def bridgeTxQueueCapacity : Nat := 32

def firmwareBuildId : String := "rp2040-zero/0.1.1-diag"

def interfaceVendorHid : UInt8 := 0

def codexReportId : UInt8 := 6

def codexReportPayloadBytes : Nat := 63

def codexReportWireBytes : Nat := 64

def bridgeFrameCodexInputReport : UInt8 := 0x01

def bridgeFrameCodexOutputReport : UInt8 := 0x02

def bridgeFramePing : UInt8 := 0x03

def bridgeFrameStatus : UInt8 := 0x04

def bridgeFrameLog : UInt8 := 0x05

/-- The most an `int` holds. -/
def intMax : Nat := 2147483647

/-- The bytes of a text. -/
def textBytes (text : String) : List UInt8 := text.toByteArray.data.toList

/-- A number behind a name, as `%u` writes it. -/
def field (name : String) (value : Nat) : String := name ++ "=" ++ toString value

/-! ## The queue of input reports -/

/-- A report with its id. -/
abbrev Report : Type := Block UInt8 codexReportWireBytes

/-- `report_queue_t`. -/
structure ReportQueue where
  reports : Block Report reportQueueCapacity
  head : UInt8
  count : UInt8
  deriving DecidableEq, Repr

/-- `report_queue_push`, with whether there was room. -/
def reportQueuePush (queue : ReportQueue) (report : Report) : Option (Bool × ReportQueue) :=
  if queue.count.toNat = reportQueueCapacity then some (false, queue)
  else
    let slot := UInt8.ofNat ((queue.head.toNat + queue.count.toNat) % reportQueueCapacity)
    (queue.reports.store slot.toNat [report]).map fun reports =>
      (true, { queue with reports, count := queue.count + 1 })

/-- `report_queue_pop`. -/
def reportQueuePop (queue : ReportQueue) : ReportQueue :=
  if queue.count = 0 then queue
  else
    { queue with
      head := UInt8.ofNat ((queue.head.toNat + 1) % reportQueueCapacity)
      count := queue.count - 1 }

/-! ## The queue of frames for the bridge -/

/-- `bridge_tx_queue_t`. -/
structure BridgeTxQueue where
  frames : Block BridgeFrame bridgeTxQueueCapacity
  head : UInt8
  count : UInt8
  deriving DecidableEq, Repr

/-- The static variables. -/
structure State where
  inputReports : ReportQueue
  bridgeTx : BridgeTxQueue
  nextSequence : UInt16
  deriving DecidableEq, Repr

/-- What they hold at first. -/
def State.init : State :=
  ⟨⟨.fill (.fill 0), 0, 0⟩, ⟨.fill ⟨0, 0, 0, .fill 0⟩, 0, 0⟩, 1⟩

/-- `bridge_tx_push`, with whether there was room. -/
def bridgeTxPush (state : State) (type : UInt8) (payload : List UInt8) :
    Option (Bool × State) :=
  let queue := state.bridgeTx
  if payload.length > bridgeMaxPayload ∨ queue.count.toNat = bridgeTxQueueCapacity then
    some (false, state)
  else do
    let slot := UInt8.ofNat ((queue.head.toNat + queue.count.toNat) % bridgeTxQueueCapacity)
    let frame ← queue.frames.load slot.toNat
    let written ← frame.payload.store 0 payload
    let frames ← queue.frames.store slot.toNat
      [⟨type, state.nextSequence, UInt16.ofNat payload.length, written⟩]
    some (true,
      { state with
        bridgeTx := { queue with frames, count := queue.count + 1 }
        nextSequence := state.nextSequence + 1 })

/-- `bridge_log`, of a text that has been formatted. -/
def bridgeLog (state : State) (text : String) : Option State :=
  if state.bridgeTx.count.toNat > bridgeTxQueueCapacity - 4 then some state
  else
    let written := textBytes text
    if written = [] then some state
    else (bridgeTxPush state bridgeFrameLog (written.take (bridgeMaxPayload - 1))).map (·.2)

/-- `bridge_tx_flush`, with the bytes that were written; the host is connected or not, and
takes so many bytes. -/
def bridgeTxFlush (state : State) (connected : Bool) (available : Nat) :
    Option (Option (List UInt8) × State) :=
  let queue := state.bridgeTx
  if queue.count = 0 ∨ connected = false then some (none, state)
  else do
    let frame ← queue.frames.load queue.head.toNat
    -- of the local buffer only what the encoder has written is read
    let encoded ← bridgeFrameEncode frame (Block.fill 0 : Block UInt8 bridgeMaxFrameBytes)
      bridgeMaxFrameBytes
    if encoded.1 = 0 ∨ available < encoded.1 then some (none, state)
    else do
      let bytes ← encoded.2.slice 0 encoded.1
      some (some bytes,
        { state with
          bridgeTx := { queue with
            head := UInt8.ofNat ((queue.head.toNat + 1) % bridgeTxQueueCapacity)
            count := queue.count - 1 } })

/-! ## Frames of the bridge -/

/-- `on_bridge_frame`. -/
def onBridgeFrame (state : State) (frame : BridgeFrame) : Option State := do
  let first ← frame.payload.load 0
  if frame.type = bridgeFrameCodexInputReport ∧ frame.length.toNat = codexReportWireBytes ∧
      first = codexReportId then do
    let pushed ← reportQueuePush state.inputReports frame.payload
    let state := { state with inputReports := pushed.2 }
    -- the report is dropped, whatever other fragments of its message are queued
    if pushed.1 = false then
      bridgeLog state ("in queue full " ++ field "seq" frame.sequence.toNat)
    else some state
  else if frame.type = bridgeFramePing then
    (bridgeTxPush state bridgeFrameStatus (textBytes firmwareBuildId)).map (·.2)
  else some state

/-! ## Reports for the host -/

/-- `hid_input_flush`, with the report that left; the USB stack is ready or not, and takes
the report or not. -/
def hidInputFlush (state : State) (ready accepted : Bool) :
    Option (Option (List UInt8) × State) :=
  let queue := state.inputReports
  if queue.count = 0 ∨ ready = false then some (none, state)
  else do
    let report ← queue.reports.load queue.head.toNat
    let payload ← report.slice 1 codexReportPayloadBytes
    -- a report that the stack does not take stays at the head
    if accepted = false then some (none, state)
    else do
      let id ← report.load 0
      let chan ← report.load 1
      let length ← report.load 2
      let state ← bridgeLog state ("hid in accepted " ++ field "id" id.toNat ++ " " ++
        field "chan" chan.toNat ++ " " ++ field "len" length.toNat ++ " " ++
        field "queued" (queue.count.toNat - 1))
      some (some (codexReportId :: payload),
        { state with inputReports := reportQueuePop state.inputReports })

/-! ## Requests of the host -/

/-- The loop of `codex_payload_contains`, with so many turns left. -/
def containsTurns (report : Report) (needle : List UInt8) (chunkLength : Nat) :
    Nat → Nat → Option Bool
  | 0, _ => none
  | turns + 1, i =>
      if i + needle.length ≤ 3 + chunkLength then do
        let bytes ← report.slice i needle.length
        if bytes = needle then some true
        else containsTurns report needle chunkLength turns (i + 1)
      else some false

/-- `codex_payload_contains`. -/
def codexPayloadContains (report : Report) (needle : List UInt8) : Option Bool := do
  let chunkLength ← report.load 2
  if chunkLength.toNat > codexReportPayloadBytes - 3 then some false
  else if chunkLength.toNat < needle.length then some false
  else containsTurns report needle chunkLength.toNat (chunkLength.toNat + 2) 3

/-- The loop that skips spaces, with so many turns left. -/
def skipSpaces (report : Report) (chunkLength : Nat) : Nat → Nat → Option Nat
  | 0, _ => none
  | turns + 1, j =>
      if j < chunkLength then do
        let byte ← report.load (3 + j)
        if byte = 0x20 then skipSpaces report chunkLength turns (j + 1) else some j
      else some j

/-- A digit. -/
def isDigit (byte : UInt8) : Bool := 0x30 ≤ byte && byte ≤ 0x39

/-- The loop that reads digits, with so many turns left. -/
def readDigits (report : Report) (chunkLength : Nat) : Nat → Nat → Nat → Option Nat
  | 0, _, _ => none
  | turns + 1, j, value =>
      if j < chunkLength then do
        let byte ← report.load (3 + j)
        if isDigit byte then
          let next := value * 10 + (byte.toNat - 0x30)
          -- the product is not larger than the sum
          if next > intMax then none
          else readDigits report chunkLength turns (j + 1) next
        else some value
      else some value

/-- The key that the id is behind. -/
def idKey : List UInt8 := [0x22, 0x69, 0x64, 0x22, 0x3a]

/-- The loop of `codex_payload_parse_id`, with so many turns left. -/
def parseIdTurns (report : Report) (chunkLength : Nat) : Nat → Nat → Option Nat
  | 0, _ => none
  | turns + 1, i =>
      if i + 4 < chunkLength then do
        let bytes ← report.slice (3 + i) 5
        if bytes = idKey then do
          let j ← skipSpaces report chunkLength (chunkLength + 1) (i + 5)
          readDigits report chunkLength (chunkLength + 1) j 0
        else parseIdTurns report chunkLength turns (i + 1)
      else some 1

/-- `codex_payload_parse_id`. -/
def codexPayloadParseId (report : Report) : Option Nat := do
  let chunkLength ← report.load 2
  parseIdTurns report chunkLength.toNat (chunkLength.toNat + 1) 0

/-! ## The response to `device.status` -/

/-- The size of the array that the response is written into. -/
def jsonBytes : Nat := 128

/-- The JSON text of the response. -/
def statusJson (id : Nat) : String :=
  "\x7b\"result\":\x7b\"version\":\"0.4.1\",\"profile_index\":0,\"layer_index\":0," ++
    "\"battery\":100,\"is_charging\":true\x7d,\"id\":" ++ toString id ++ "\x7d"

/-- The loop that queues the fragments, with so many turns left; the number of fragments, if
all of them were queued. -/
def queueFragments (json : Block UInt8 jsonBytes) (total : Nat) :
    Nat → Nat → Nat → State → Option (Option Nat × State)
  | 0, _, _, _ => none
  | turns + 1, offset, fragments, state =>
      if offset < total then do
        let chunk := if total - offset > 61 then 61 else total - offset
        let bytes ← json.slice offset chunk
        let report ← (Block.fill 0).store 0
          ([codexReportId, 0x02, UInt8.ofNat chunk] ++ bytes)
        let pushed ← reportQueuePush state.inputReports report
        let state := { state with inputReports := pushed.2 }
        -- the fragments that were queued stay there
        if pushed.1 = false then
          (bridgeLog state "status resp queue full").map fun state => (none, state)
        else queueFragments json total turns (offset + chunk) (fragments + 1) state
      else some (some fragments, state)

/-- `send_device_status_response`. -/
def sendDeviceStatusResponse (state : State) (id : Nat) : Option State :=
  let text := textBytes (statusJson id)
  if text = [] ∨ text.length ≥ jsonBytes then some state
  else do
    -- `snprintf` ends the text with a zero, where the terminator then starts
    let json ← (Block.fill 0).store 0 (text ++ [0])
    let json ← json.store text.length [0x0d]
    let json ← json.store (text.length + 1) [0x0a]
    let total := text.length + 2
    let queued ← queueFragments json total (total + 1) 0 0 state
    match queued.1 with
    | none => some queued.2
    | some fragments =>
        bridgeLog queued.2 ("device.status resp queued " ++ field "id" id ++ " " ++
          field "fragments" fragments ++ " " ++ field "bytes" total)

/-! ## Reports of the host -/

/-- `hid_report_type_t`. -/
inductive HidReportType where
  | invalid
  | input
  | output
  | feature
  deriving DecidableEq, Repr

/-- The number of a type. -/
def HidReportType.toNat : HidReportType → Nat
  | .invalid => 0
  | .input => 1
  | .output => 2
  | .feature => 3

/-- What `tud_hid_set_report_cb` is called with; a null pointer is no buffer, and the size
of a buffer is its length. -/
structure SetReport where
  interface : UInt8
  reportId : UInt8
  reportType : HidReportType
  buffer : Option (List UInt8)
  deriving DecidableEq, Repr

/-- Where a request comes from, for the log. -/
def SetReport.fields (request : SetReport) : String :=
  field "inst" request.interface.toNat ++ " " ++ field "id" request.reportId.toNat ++ " " ++
    field "type" request.reportType.toNat

/-- What is logged of a report that is accepted, whose bytes behind the id start so. -/
def SetReport.accepted (request : SetReport) (size : Nat) (header : List UInt8) : String :=
  "hid out " ++ request.fields ++ " " ++ field "wire" size ++ " " ++
    field "chan" (header.getD 0 0).toNat ++ " " ++ field "chunk" (header.getD 1 0).toNat ++
    " head=" ++ String.join (((header.drop 2).take 4).map Codex.upperHex)

/-- The buffer with its report id, in the shapes that are accepted. -/
def normalizedReport (reportId : UInt8) (buffer : List UInt8) : Option Report :=
  if reportId = codexReportId ∧ buffer.length = codexReportPayloadBytes then
    (Block.fill 0).store 0 (codexReportId :: buffer)
  else if buffer.length = codexReportWireBytes ∧ buffer.getD 0 0 = codexReportId then
    (Block.fill 0).store 0 buffer
  else none

/-- The part of `tud_hid_set_report_cb` behind the normalization. -/
def handleReport (state : State) (request : SetReport) (size : Nat) (normalized : Report) :
    Option State := do
  let header := normalized.cells.drop 1
  let state ← bridgeLog state (request.accepted size header)
  let contains ← codexPayloadContains normalized (textBytes "device.status")
  -- what is answered is forwarded as well
  let state ←
    if contains then do
      let id ← codexPayloadParseId normalized
      let state ← bridgeLog state ("device.status req " ++ field "id" id ++ " " ++
        field "chunk" (header.getD 1 0).toNat)
      sendDeviceStatusResponse state id
    else some state
  let pushed ← bridgeTxPush state bridgeFrameCodexOutputReport normalized.cells
  if pushed.1 = false then bridgeLog pushed.2 "codex out queue full" else some pushed.2

/-- `tud_hid_set_report_cb`. -/
def tudHidSetReportCb (state : State) (request : SetReport) : Option State :=
  let buffer := request.buffer.getD []
  if request.interface ≠ interfaceVendorHid then
    bridgeLog state ("hid set ignore " ++ request.fields ++ " " ++ field "len" buffer.length)
  else if buffer = [] then some state
  else
    match normalizedReport request.reportId buffer with
    | some normalized => handleReport state request buffer.length normalized
    | none =>
        let reason :=
          if request.reportType ≠ .output ∧ request.reportType ≠ .feature then "skip" else "drop"
        bridgeLog state ("hid set " ++ reason ++ " " ++ request.fields ++ " " ++
          field "len" buffer.length ++ " " ++ field "b0" (buffer.getD 0 0).toNat)

end Firmware
end MicroEmu
