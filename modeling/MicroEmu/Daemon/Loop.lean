import MicroEmu.Bridge.Frame
import MicroEmu.Daemon.Requests
import MicroEmu.Library.Runs

/-!
# The daemon as a system

Every connection has a reader thread, which posts what it reads to one channel;
the main loop takes the messages from it one by one and does the rest of its work
in between.  The steps of the readers and those of the loop interleave in any
order, and a run is a list of steps; a step that is not possible leaves the
system as it is.

Everything the loop does to the bridge outside the requests (serial events,
polling the controllers, the feeds, repartitions, plugin sessions) is the step
`work`: any bridge may come out of it, but its routing queues are the old ones
after some pushes.
-/

namespace MicroEmu
namespace Daemon

open Json (Value)
open Routing (AgentId BufferedEvent)
open Bridge (BridgeRuntime Outside)
open Tasks (WalkOrder)

/-! ## Readers -/

/-- A line a reader has read. -/
inductive Line where
  | blank
  /-- A text `serde_json` rejects. -/
  | invalid
  | json (value : Value)

/-- What the reader thread of a connection is about to do. -/
inductive Reader where
  /-- The connection has not been accepted. -/
  | absent
  /-- Read the first line. -/
  | accepted
  /-- Forward the first line; the session is registered. -/
  | greeting (first : Line)
  /-- Read the next line. -/
  | reading
  /-- The connection belongs to a controller plugin. -/
  | plugin
  /-- The connection is closed. -/
  | closed

def Reader.isClosed : Reader → Bool
  | .closed => true
  | _ => false

/-- `SessionMessage`, those of plugin sessions aside. -/
inductive SessionMessage where
  | connected (session : Nat)
  | request (session : Nat) (request : Value)
  | hello (session : Nat) (info : HelloInfo)
  | disconnected (session : Nat)
  | error (session : Nat)

/-- The session a message is from. -/
def SessionMessage.session : SessionMessage → Nat
  | .connected session => session
  | .request session _ => session
  | .hello session _ => session
  | .disconnected session => session
  | .error session => session

/-- `forward_mcp_line`; a blank line is skipped. -/
def forwardLine (session : Nat) : Line → List SessionMessage
  | .blank => []
  | .invalid => [.error session]
  | .json value => [.request session value]

/-- What becomes of the first line. -/
def forwardFirst (session : Nat) (line : Line) : List SessionMessage :=
  match line with
  | .json value =>
      match parseHelloInfo value with
      | some info => [.hello session
          { info with instanceId := info.instanceId.or (some ("session-" ++ toString session)) }]
      | none => forwardLine session line
  | _ => forwardLine session line

/-- The first line is the hello of a controller plugin. -/
def greetsController : Line → Bool
  | .json value => (parseControllerHello value).isSome
  | _ => false

/-! ## Requests that call for a response -/

/-- The id of a request that has one and a method that is no notification. -/
def awaitedId (request : Value) : Option Value :=
  match DaemonState.requestMethod request with
  | none => none
  | some method => if DaemonState.isNotification method then none else request.get? "id"

/-- The session and the id of a message that calls for a response. -/
def SessionMessage.awaits : SessionMessage → Option (Nat × Value)
  | .request session value => (awaitedId value).map fun id => (session, id)
  | _ => none

/-! ## The system -/

structure System (World : Type) where
  daemon : DaemonState World
  /-- The id of the next connection. -/
  nextId : Nat
  readers : Nat → Reader
  /-- The messages in the channel, oldest first. -/
  mail : List SessionMessage
  /-- The requests read so far that call for a response, with their session. -/
  asked : List (Nat × Value)

inductive Step (World : Type) where
  /-- A connection is accepted. -/
  | accept
  /-- A reader reads a line. -/
  | read (session : Nat) (line : Line)
  /-- A reader forwards its first line. -/
  | greet (session : Nat)
  /-- A reader reaches the end of its connection. -/
  | close (session : Nat)
  /-- A reader fails to read. -/
  | fail (session : Nat)
  /-- The loop takes a message from the channel. -/
  | handle (order : WalkOrder)
  /-- The loop distributes the pending task events. -/
  | routeTaskEvents
  /-- The loop resolves the pending polls. -/
  | resolvePolls (now : Nat)
  /-- Anything else the loop does to the bridge. -/
  | work (bridge : BridgeRuntime World) (pushed : List (AgentId × BufferedEvent))

namespace DaemonState

variable {World : Type} (out : Outside World)

/-- One arm of the loop over the session messages. -/
def handleMessage (order : WalkOrder) (state : DaemonState World) :
    SessionMessage → DaemonState World
  | .connected session => state.connect session
  | .request session request => state.handleRequest out order session request
  | .hello session info => state.hello out order session info
  | .disconnected session => state.endSession out order session
  | .error session => state.endSession out order session

/-- The bridge after other work of the loop. -/
def work (state : DaemonState World) (bridge : BridgeRuntime World)
    (pushed : List (AgentId × BufferedEvent)) : DaemonState World :=
  { state with
    bridge := { bridge with
      routing := BridgeRuntime.pushAll state.bridge.routing pushed }
    posted := state.posted ++
      pushed.map fun push => (.agent push.1, BufferedEvent.toJson push.2) }

end DaemonState

namespace System

variable {World : Type} (out : Outside World) (system : System World)

/-- A daemon without connections. -/
def started (bridge : BridgeRuntime World) : System World where
  daemon := .started bridge
  nextId := 1
  readers _ := .absent
  mail := []
  asked := []

/-- A reader posts messages and goes on. -/
def post (session : Nat) (next : Reader) (messages : List SessionMessage) : System World :=
  { system with
    readers := Function.update system.readers session next
    mail := system.mail ++ messages
    asked := system.asked ++ messages.filterMap SessionMessage.awaits }

/-- The reader of an open connection stops. -/
def stop (session : Nat) (message : SessionMessage) : System World :=
  match system.readers session with
  | .accepted => system.post session .closed [message]
  | .reading => system.post session .closed [message]
  | _ => system

def step (system : System World) : Step World → System World
  | .accept =>
      { system with
        nextId := system.nextId + 1
        readers := Function.update system.readers system.nextId .accepted }
  | .read session line =>
      match system.readers session with
      | .accepted =>
          if greetsController line then system.post session .plugin []
          else system.post session (.greeting line) [.connected session]
      | .reading => system.post session .reading (forwardLine session line)
      | _ => system
  | .greet session =>
      match system.readers session with
      | .greeting first => system.post session .reading (forwardFirst session first)
      | _ => system
  | .close session => system.stop session (.disconnected session)
  | .fail session => system.stop session (.error session)
  | .handle order =>
      match system.mail with
      | [] => system
      | message :: rest =>
          { system with
            daemon := system.daemon.handleMessage out order message
            mail := rest }
  | .routeTaskEvents => { system with daemon := system.daemon.routeTaskEvents }
  | .resolvePolls now =>
      { system with daemon := system.daemon.resolvePendingPolls out.toStringPretty now }
  | .work bridge pushed => { system with daemon := system.daemon.work bridge pushed }

/-- The system after a list of steps. -/
def run (steps : List (Step World)) (system : System World) : System World :=
  Library.runFrom (step out) steps system

end System

namespace DaemonState

variable {World : Type} (out : Outside World) (order : WalkOrder)

end DaemonState
end Daemon
end MicroEmu
