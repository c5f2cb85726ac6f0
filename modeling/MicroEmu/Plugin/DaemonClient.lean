import MicroEmu.Json
import MicroEmu.Library.Tailing
import Mathlib.Logic.Function.Basic

/-!
# The client of the daemon

The plugin talks to the daemon over one socket at a time, in lines of JSON.  It asks for a
new task with a line that carries no id: the functions that settle its promises wait in a
list, and each reply takes the first of them.  Events are the calls of the plugin, what the
sockets report and the timers, in any order.
-/

namespace MicroEmu
namespace Plugin

open Json (Value)
open Library

/-! ## Requests -/

/-- A promise of `requestZcodeNewTask`, with the timer that ends it. -/
structure Request where
  settled : Bool
  /-- The timer is set. -/
  timer : Bool
  /-- Every value that it was resolved with. -/
  resolved : List Bool
  deriving DecidableEq, Repr

namespace Request

/-- A promise that is resolved at once. -/
def refused : Request := ⟨true, false, [false]⟩

/-- A promise that waits. -/
def waiting : Request := ⟨false, true, []⟩

variable (request : Request)

/-- `finish`. -/
def finish (handled : Bool) : Request :=
  if request.settled then request
  else
    { settled := true
      timer := false
      resolved := request.resolved ++ [handled] }

/-- The timer fires. -/
def expire : Request :=
  if request.timer then { request with timer := false }.finish false else request

end Request

/-! ## Text -/

/-- The white space of JavaScript. -/
def isSpace (c : Char) : Bool :=
  let n := c.toNat
  (9 ≤ n && n ≤ 13) || n == 0x20 || n == 0xA0 || n == 0xFEFF || n == 0x1680 ||
    (0x2000 ≤ n && n ≤ 0x200A) || n == 0x2028 || n == 0x2029 || n == 0x202F ||
    n == 0x205F || n == 0x3000

/-- `trim`. -/
def trim (text : List Char) : String :=
  String.ofList (((text.dropWhile isSpace).reverse.dropWhile isSpace).reverse)

def isNewline (c : Char) : Bool := c == '\n'

/-! ## The client -/

/-- Where a socket is. -/
inductive Phase where
  | connecting
  | connected
  /-- Destroyed or ended: nothing arrives any more, and its "close" event follows. -/
  | destroyed
  | closed
  deriving DecidableEq, Repr

/-- `DaemonClient`, its sockets, and what was sent and received on each. -/
structure DaemonClient where
  socket : Option Nat
  buffer : List Char
  /-- `reconnectTimer` is set. -/
  reconnectTimer : Bool
  /-- The sockets of `connectTimer` and `heartbeatTimer`. -/
  connectTimer : Option Nat
  heartbeatTimer : Option Nat
  connected : Bool
  connecting : Bool
  stopped : Bool
  newTaskWaiters : List Nat
  requests : List Request
  /-- How many sockets were made. -/
  sockets : Nat
  phase : Nat → Phase
  /-- The requests that were written to a socket. -/
  sent : Nat → List Nat
  /-- The text that a socket has received. -/
  received : Nat → List Char
  /-- Which waiter each reply on a socket was given to. -/
  given : Nat → List (Nat × Bool)
  /-- An exception has ended the process. -/
  crashed : Bool

namespace DaemonClient

/-- The constructor. -/
def new : DaemonClient where
  socket := none
  buffer := []
  reconnectTimer := false
  connectTimer := none
  heartbeatTimer := none
  connected := false
  connecting := false
  stopped := true
  newTaskWaiters := []
  requests := []
  sockets := 0
  phase _ := .closed
  sent _ := []
  received _ := []
  given _ := []
  crashed := false

variable (client : DaemonClient)

/-- `socket.destroy()`. -/
def destroy (socket : Nat) : DaemonClient :=
  { client with
    phase := Function.update client.phase socket
      (if client.phase socket = .closed then .closed else .destroyed) }

/-- `failNewTaskWaiters`. -/
def failNewTaskWaiters : DaemonClient :=
  { client with
    newTaskWaiters := []
    requests := client.newTaskWaiters.foldl
      (fun requests id => requests.modify id (·.finish false)) client.requests }

/-- `send` with the line of a request. -/
def send (id : Nat) : DaemonClient :=
  match client.socket with
  | some socket =>
      if client.connected then
        { client with sent := Function.update client.sent socket (client.sent socket ++ [id]) }
      else client
  | none => client

/-- `requestZcodeNewTask`. -/
def requestZcodeNewTask : DaemonClient :=
  if ¬client.connected then
    { client with requests := client.requests ++ [.refused] }
  else
    { client with
      requests := client.requests ++ [Request.waiting]
      newTaskWaiters := client.newTaskWaiters ++ [client.requests.length] }.send
        client.requests.length

/-! ### Connections -/

/-- `connect`. -/
def connect : DaemonClient :=
  if client.stopped || client.connecting || client.connected then client
  else
    { client with
      connecting := true
      socket := some client.sockets
      connectTimer := some client.sockets
      sockets := client.sockets + 1
      phase := Function.update client.phase client.sockets .connecting }

/-- `start`. -/
def start : DaemonClient :=
  if client.stopped then { client with stopped := false }.connect else client

/-- `reconnect`. -/
def reconnect : DaemonClient :=
  if client.stopped then client
  else
    let client := { client with
      reconnectTimer := false
      connectTimer := none
      heartbeatTimer := none }
    match client.socket with
    | some socket => client.destroy socket
    | none => { client with buffer := [], connected := false, connecting := false }.connect

/-- `stop`. -/
def stop : DaemonClient :=
  let client := match client.socket with
    | some socket => { client.destroy socket with socket := none }
    | none => client
  { client with
    stopped := true
    reconnectTimer := false
    connectTimer := none
    heartbeatTimer := none
    connected := false
    connecting := false }.failNewTaskWaiters

/-- `scheduleReconnect`. -/
def scheduleReconnect : DaemonClient :=
  if client.stopped || client.reconnectTimer then client
  else { client with reconnectTimer := true }

/-! ### Lines -/

/-- The first waiter gets the reply, if there is one. -/
def shiftWaiter (socket : Nat) (handled : Bool) : DaemonClient :=
  match client.newTaskWaiters with
  | [] => client
  | id :: waiters =>
      { client with
        newTaskWaiters := waiters
        requests := client.requests.modify id (·.finish handled)
        given := Function.update client.given socket
          (client.given socket ++ [(id, handled)]) }

/-- A message, as far as it concerns the socket and the waiters. -/
def handleMessage (socket : Nat) (message : Value) : DaemonClient :=
  let type := (message.get? "type").bind Value.asStr
  if type = some "goodbye" then
    match client.socket with
    | some current => client.destroy current
    | none => client
  else if type = some "new-task-result" then
    client.shiftWaiter socket ((message.get? "handled").bind Value.asBool = some true)
  else client

variable (parse : String → Option Value)

/-- `handleLine`; `null` has no `type`, and reading it throws. -/
def handleLine (socket : Nat) (line : String) : DaemonClient :=
  match parse line with
  | none => client
  | some .null => { client with crashed := true }
  | some message => client.handleMessage socket message

/-- A line with its terminator. -/
def handleText (socket : Nat) (line : List Char) : DaemonClient :=
  if trim line.dropLast = "" then client
  else client.handleLine parse socket (trim line.dropLast)

/-- The loop over the complete lines of the buffer, which an exception leaves. -/
def handleBuffer (socket : Nat) (buffer : List Char) : DaemonClient :=
  let handled := handleLines isNewline (fun client line => client.handleText parse socket line)
    DaemonClient.crashed client buffer
  { handled.1 with buffer := handled.2 }

/-! ### Handlers of a socket -/

/-- "connect". -/
def onConnect (socket : Nat) : DaemonClient :=
  let client := { client with phase := Function.update client.phase socket .connected }
  if client.stopped || client.socket != some socket then client.destroy socket
  else
    { client with
      connectTimer := none
      connecting := false
      connected := true
      heartbeatTimer := some socket }

/-- "data". -/
def onData (socket : Nat) (data : List Char) : DaemonClient :=
  let client := { client with
    received := Function.update client.received socket (client.received socket ++ data) }
  if client.socket = some socket then
    client.handleBuffer parse socket (client.buffer ++ data)
  else client

/-- "close". -/
def onClose (socket : Nat) : DaemonClient :=
  let client := { client with phase := Function.update client.phase socket .closed }
  if client.socket = some socket then
    { client with
      connectTimer := none
      heartbeatTimer := none
      connecting := false
      buffer := []
      connected := false
      socket := none }.failNewTaskWaiters.scheduleReconnect
  else client

end DaemonClient

/-! ## Events -/

inductive ClientEvent where
  | start
  | stop
  | reconnect
  | requestZcodeNewTask
  /-- The timer of a request fires. -/
  | expires (request : Nat)
  | connects (socket : Nat)
  | receives (socket : Nat) (data : List Char)
  /-- A socket fails, or its other end is gone. -/
  | fails (socket : Nat)
  | closes (socket : Nat)
  | reconnectTimer
  | connectTimer
  /-- The heartbeat finds the daemon idle for too long or not. -/
  | heartbeat (idle : Bool)

/-- One event; nothing happens any more in a process that has ended. -/
def DaemonClient.step (parse : String → Option Value) (client : DaemonClient)
    (event : ClientEvent) : DaemonClient :=
  if client.crashed then client
  else
    match event with
    | .start => client.start
    | .stop => client.stop
    | .reconnect => client.reconnect
    | .requestZcodeNewTask => client.requestZcodeNewTask
    | .expires id => { client with requests := client.requests.modify id Request.expire }
    | .connects socket =>
        if client.phase socket = .connecting then client.onConnect socket else client
    | .receives socket data =>
        if client.phase socket = .connected then client.onData parse socket data else client
    | .fails socket => client.destroy socket
    | .closes socket =>
        if client.phase socket = .destroyed then client.onClose socket else client
    | .reconnectTimer =>
        if client.reconnectTimer then { client with reconnectTimer := false }.connect
        else client
    | .connectTimer =>
        match client.connectTimer with
        | some socket =>
            if client.socket = some socket ∧ client.connecting then
              { client with connectTimer := none }.destroy socket
            else { client with connectTimer := none }
        | none => client
    | .heartbeat idle =>
        match client.heartbeatTimer with
        | some socket =>
            if idle ∧ ¬client.stopped ∧ client.connected ∧ client.socket = some socket then
              client.destroy socket
            else client
        | none => client

end Plugin
end MicroEmu
