import MicroEmu.Json
import MicroEmu.Library.Runs

/-!
# The pump of a proxy

A proxy passes the lines of an MCP client on to the daemon, and those of the daemon back.
Two threads read the lines into channels; one loop checks the channels in turn, and ends
when either side does.  Events are what the daemon sends, what the threads read, and the
checks of the loop, in any order.
-/

namespace MicroEmu
namespace Proxy

open Json (Value)

/-- What a reader thread puts into its channel. -/
inductive Item where
  | line (line : String)
  /-- "stdin closed" or "daemon closed connection". -/
  | closed
  | failed (error : String)
  deriving DecidableEq, Repr

/-- A line on the connection to the daemon. -/
inductive Traffic where
  | forwarded (line : String)
  | sent (line : String)
  deriving DecidableEq, Repr

/-- What the loop checks next. -/
inductive Check where
  | stdin
  | daemon
  deriving DecidableEq, Repr

/-- What the proxy writes to its output. -/
inductive Output where
  | passed (line : String)
  | composed (value : Value)

/-- A line that the reader threads skip. -/
def isBlank (line : String) : Bool := decide (Json.trim line = "")

/-- The threads and the loop of `run_proxy`, and the connection to the daemon. -/
structure Pump where
  /-- Every line that was written to the daemon or sent by it. -/
  traffic : List Traffic
  /-- The lines of the daemon that are not read yet. -/
  wire : List String
  daemonClosed : Bool
  daemonChannel : List Item
  /-- The reader thread of the daemon has ended. -/
  daemonDone : Bool
  stdinChannel : List Item
  stdinDone : Bool
  next : Check
  output : List Output
  ended : Option (Except String Unit)

namespace Pump

/-- The proxy when its threads start. -/
def new : Pump where
  traffic := []
  wire := []
  daemonClosed := false
  daemonChannel := []
  daemonDone := false
  stdinChannel := []
  stdinDone := false
  next := .stdin
  output := []
  ended := none

variable (pump : Pump)

/-! ## The reader threads -/

/-- The next line from the daemon, or the end of the connection. -/
def readDaemon : Pump :=
  if pump.daemonDone then pump
  else
    match pump.wire with
    | line :: wire =>
        { pump with
          wire := wire
          daemonChannel := pump.daemonChannel ++ if isBlank line then [] else [.line line] }
    | [] =>
        if pump.daemonClosed then
          { pump with daemonChannel := pump.daemonChannel ++ [.closed], daemonDone := true }
        else pump

/-- Reading from the daemon fails. -/
def failDaemon (error : String) : Pump :=
  if pump.daemonDone then pump
  else
    { pump with
      daemonChannel := pump.daemonChannel ++ [.failed ("daemon read failed: " ++ error)]
      daemonDone := true }

/-- A line from the client. -/
def readStdin (line : String) : Pump :=
  if pump.stdinDone then pump
  else
    { pump with stdinChannel := pump.stdinChannel ++ if isBlank line then [] else [.line line] }

/-- The client is gone, or reading from it fails. -/
def endStdin (error : Option String) : Pump :=
  if pump.stdinDone then pump
  else
    { pump with
      stdinChannel := pump.stdinChannel ++ [match error with
        | none => .closed
        | some error => .failed ("stdin read failed: " ++ error)]
      stdinDone := true }

/-! ## The loop -/

/-- The answer when the daemon is gone. -/
def unavailable : Value :=
  .object [("jsonrpc", .string "2.0"),
    ("error", .object [("code", .number (.negInt (-32001))),
      ("message", .string "bridge daemon unavailable")])]

/-- "Check stdin"; `written` says whether a write to the daemon succeeds. -/
def checkStdin (written : Bool) : Pump :=
  match pump.stdinChannel with
  | .line line :: items =>
      if written then
        { pump with
          stdinChannel := items
          traffic := pump.traffic ++ [.forwarded line]
          next := .daemon }
      else { pump with stdinChannel := items, ended := some (.ok ()) }
  | .closed :: items => { pump with stdinChannel := items, ended := some (.ok ()) }
  | .failed error :: items => { pump with stdinChannel := items, ended := some (.error error) }
  | [] =>
      if pump.stdinDone then { pump with ended := some (.ok ()) }
      else { pump with next := .daemon }

/-- "Check daemon"; `shown` says whether a write to the output succeeds. -/
def checkDaemon (shown : Bool) : Pump :=
  match pump.daemonChannel with
  | .line line :: items =>
      if shown then
        { pump with
          daemonChannel := items
          output := pump.output ++ [.passed line]
          next := .stdin }
      else { pump with daemonChannel := items, ended := some (.ok ()) }
  | .closed :: items =>
      { pump with
        daemonChannel := items
        output := pump.output ++ if shown then [.composed unavailable] else []
        ended := some (.ok ()) }
  | .failed _ :: items => { pump with daemonChannel := items, ended := some (.ok ()) }
  | [] =>
      if pump.daemonDone then { pump with ended := some (.ok ()) }
      else { pump with next := .stdin }

/-- The loop goes on with its next check. -/
def check (writes : Bool) : Pump :=
  match pump.next with
  | .stdin => pump.checkStdin writes
  | .daemon => pump.checkDaemon writes

end Pump

/-- What happens around the proxy and in it. -/
inductive PumpEvent where
  | daemonSends (line : String)
  | daemonCloses
  | readDaemon
  | failDaemon (error : String)
  | readStdin (line : String)
  | endStdin (error : Option String)
  /-- The next check of the loop, and whether its write succeeds. -/
  | check (writes : Bool)

/-- One event; nothing happens any more to a proxy that has ended. -/
def Pump.step (pump : Pump) (event : PumpEvent) : Pump :=
  if pump.ended.isSome then pump
  else
    match event with
    | .daemonSends line =>
        if pump.daemonClosed then pump
        else
          { pump with traffic := pump.traffic ++ [.sent line], wire := pump.wire ++ [line] }
    | .daemonCloses => { pump with daemonClosed := true }
    | .readDaemon => pump.readDaemon
    | .failDaemon error => pump.failDaemon error
    | .readStdin line => pump.readStdin line
    | .endStdin error => pump.endStdin error
    | .check writes => pump.check writes

end Proxy
end MicroEmu
