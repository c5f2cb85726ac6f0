import MicroEmu.Firmware.Fifos

/-!
# The loop of the firmware

The loop of `main` serves the USB stack, reads what has come from the bridge, and hands one
report and one frame on.  Whatever it is called with, it touches its two queues only by
pushing to them and by flushing them.
-/

namespace MicroEmu
namespace Firmware

/-! ## The loop -/

/-- What `tud_task` calls back.  The buffer of a report that is asked for may be a null
pointer. -/
inductive Callback where
  | setReport (request : SetReport)
  | getReport (interface reportId : UInt8) (reportType : HidReportType) (buffered : Bool)
      (requestedLength : UInt16)
  | reportComplete (interface : UInt8) (length : UInt16)
  | mount
  | unmount
  | suspend (remoteWakeupEnabled : Bool)
  | resume
  | setProtocol (interface protocol : UInt8)
  | setIdle (interface idleRate : UInt8)
  deriving DecidableEq, Repr

/-- `tud_hid_get_report_cb`, with what the buffer is filled with. -/
def tudHidGetReportCb (state : State) (interface reportId : UInt8) (reportType : HidReportType)
    (buffered : Bool) (requestedLength : UInt16) : Option (List UInt8 × State) :=
  if interface ≠ interfaceVendorHid then some ([], state)
  else do
    let state ← bridgeLog state ("hid get " ++ field "inst" interface.toNat ++ " " ++
      field "id" reportId.toNat ++ " " ++ field "type" reportType.toNat ++ " " ++
      field "len" requestedLength.toNat)
    if reportId ≠ codexReportId ∨ buffered = false then some ([], state)
    else
      some (List.replicate (min requestedLength.toNat codexReportPayloadBytes) 0, state)

/-- A callback; what is answered goes to the stack. -/
def onCallback (state : State) : Callback → Option State
  | .setReport request => tudHidSetReportCb state request
  | .getReport interface reportId reportType buffered requestedLength =>
      (tudHidGetReportCb state interface reportId reportType buffered requestedLength).map (·.2)
  | .reportComplete interface length =>
      if interface ≠ interfaceVendorHid then some state
      else
        bridgeLog state ("hid in complete " ++ field "inst" interface.toNat ++ " " ++
          field "len" length.toNat)
  | .mount => bridgeLog state "usb mounted"
  | .unmount => bridgeLog state "usb unmounted"
  | .suspend remoteWakeupEnabled =>
      bridgeLog state ("usb suspended " ++ field "wake" remoteWakeupEnabled.toNat)
  | .resume => bridgeLog state "usb resumed"
  | .setProtocol _ protocol => bridgeLog state ("hid " ++ field "protocol" protocol.toNat)
  | .setIdle _ idleRate => bridgeLog state ("hid " ++ field "idle" idleRate.toNat)

/-- The static variables, with what the parser has reported so far. -/
structure Device where
  state : State
  parser : ParserRun
  bootLogPending : Bool
  deriving Repr

/-- What they hold when the loop starts. -/
def Device.boot : Device := ⟨.init, .init, true⟩

/-- What a step hands to the USB stack and writes to the bridge. -/
structure Output where
  reports : List (List UInt8)
  bytes : List (List UInt8)
  deriving DecidableEq, Repr

def Output.none : Output := ⟨[], []⟩

def Output.append (first second : Output) : Output :=
  ⟨first.reports ++ second.reports, first.bytes ++ second.bytes⟩

/-- The frames that the parser has handed over since. -/
def ParserRun.callbacksSince (run earlier : ParserRun) : List BridgeFrame :=
  run.callbacks.drop earlier.callbacks.length

/-- One part of a turn of the loop, with what the stack answers. -/
inductive LoopStep where
  | callback (callback : Callback)
  /-- One `tud_cdc_read` of `bridge_rx_poll`. -/
  | read (bytes : List UInt8)
  | inputFlush (ready accepted : Bool)
  | bootLog (connected : Bool)
  | txFlush (connected : Bool) (available : Nat)

/-- A part of a turn.  The callback of the parser does not touch the parser, so the frames of
a read may be handed over once it has been parsed. -/
def Device.step (device : Device) : LoopStep → Option (Output × Device)
  | .callback callback =>
      (onCallback device.state callback).map fun state => (.none, { device with state })
  | .read bytes => do
      let parser ← bridgeParserFeed device.parser bytes
      let state ← (parser.callbacksSince device.parser).foldlM onBridgeFrame device.state
      some (.none, { device with parser, state })
  | .inputFlush ready accepted =>
      (hidInputFlush device.state ready accepted).map fun flushed =>
        (⟨flushed.1.toList, []⟩, { device with state := flushed.2 })
  | .bootLog connected =>
      if device.bootLogPending ∧ connected then
        (bridgeLog device.state ("boot " ++ firmwareBuildId ++ " usage-page=FF00")).map
          fun state => (.none, { device with state, bootLogPending := false })
      else some (.none, device)
  | .txFlush connected available =>
      (bridgeTxFlush device.state connected available).map fun flushed =>
        (⟨[], flushed.1.toList⟩, { device with state := flushed.2 })

/-- Parts one after another, with all that is handed over. -/
def Device.run : List LoopStep → Device → Option (Output × Device)
  | [], device => some (.none, device)
  | step :: steps, device => do
      let first ← device.step step
      let last ← run steps first.2
      some (first.1.append last.1, last.2)

/-- What a turn of the loop of `main` meets. -/
structure Turn where
  callbacks : List Callback
  reads : List (List UInt8)
  ready : Bool
  accepted : Bool
  bootConnected : Bool
  connected : Bool
  available : Nat

/-- The parts of a turn, in their order. -/
def Turn.steps (turn : Turn) : List LoopStep :=
  turn.callbacks.map .callback ++ turn.reads.map .read ++
    [.inputFlush turn.ready turn.accepted, .bootLog turn.bootConnected,
      .txFlush turn.connected turn.available]

/-- The loop of `main`, for so many turns. -/
def mainLoop (turns : List Turn) : Option (Output × Device) :=
  Device.boot.run (turns.flatMap Turn.steps)

end Firmware
end MicroEmu
