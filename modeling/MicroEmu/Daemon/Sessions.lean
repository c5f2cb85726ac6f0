import MicroEmu.Bridge.Tools
import MicroEmu.Mcp

/-!
# Sessions of the daemon

A session is one connection of an agent.  The daemon keeps a handle with an event
buffer for each, and a list of the polls that wait for an event.  Three histories
go along with the state: the messages sent to the sessions, the events pushed to
the buffers and queues, and the agents that have registered.
-/

namespace MicroEmu
namespace Daemon

open Json (Value)
open Routing (AgentId BufferedEvent EventRouting)
open Bridge (BridgeRuntime)

/-! ## The hello line -/

structure HelloInfo where
  agent : AgentId
  instanceId : Option String
  focusCapable : Bool
  deriving DecidableEq, Repr

/-- `BRIDGE_HELLO`. -/
def bridgeHello : String := "hello"

/-- An instance id that is neither empty nor over-long. -/
def instanceText (value : Option Value) : Option String :=
  (value.bind Value.asStr).filter fun text => text != "" && Json.charCount text ≤ 160

/-- `parse_hello_info` of a line that is valid JSON. -/
def parseHelloInfo (line : Value) : Option HelloInfo :=
  if (line.get? "bridge").bind Value.asStr ≠ some bridgeHello then none
  else
    ((line.get? "agent").bind Value.asStr).bind fun name =>
      match AgentId.parse name with
      | .error _ => none
      | .ok agent => some {
          agent := agent
          instanceId := instanceText ((line.get? "instance_id").or (line.get? "instance"))
          focusCapable := (((line.get? "focus").bind Value.asBool).or
            (((line.get? "capabilities").bind (·.get? "focus")).bind Value.asBool)).getD
              false }

/-- `MAX_PLUGIN_TASK_SLOTS`. -/
def maxPluginTaskSlots : Nat := 64

/-- `parse_controller_hello` of a line that is valid JSON: the instance of a Stream
Deck plugin with its slots. -/
def parseControllerHello (line : Value) : Option (String × Nat) :=
  if (line.get? "bridge").bind Value.asStr ≠ some "hello" then none
  else if (line.get? "role").bind Value.asStr ≠ some "controller" then none
  else if (line.get? "controller").bind Value.asStr ≠ some "streamdeck-plugin" then none
  else
    (instanceText (line.get? "instance_id")).map fun instanceId =>
      (instanceId, min (((line.get? "taskSlots").bind Value.asU64).getD 0)
        maxPluginTaskSlots)

/-! ## Handles and polls -/

structure SessionHandle where
  id : Nat
  agent : Option AgentId
  instanceId : Option String
  focusCapable : Bool
  /-- Events for the session, oldest first. -/
  events : List Value

/-- The handle of a session that has just connected. -/
def SessionHandle.connected (id : Nat) : SessionHandle :=
  ⟨id, none, none, false, []⟩

/-- The handle after a change of its events. -/
def SessionHandle.mapEvents (change : List Value → List Value) (session : SessionHandle) :
    SessionHandle :=
  { session with events := change session.events }

/-- The handle of a session that has said hello. -/
def SessionHandle.greeted (info : HelloInfo) (session : SessionHandle) : SessionHandle :=
  { session with
    agent := some info.agent
    instanceId := some (info.instanceId.getD ("session-" ++ toString session.id))
    focusCapable := info.focusCapable }

theorem SessionHandle.mapEvents_id (session : SessionHandle)
    (change : List Value → List Value) : (session.mapEvents change).id = session.id := rfl

theorem SessionHandle.greeted_id (session : SessionHandle) (info : HelloInfo) :
    (session.greeted info).id = session.id := rfl

/-- A poll that waits for the first event. -/
structure PendingPoll where
  sessionId : Nat
  agent : AgentId
  /-- `Instant` in milliseconds. -/
  deadline : Nat
  requestId : Value

/-- The handle a lookup by id finds. -/
def findSession (sessions : List SessionHandle) (id : Nat) : Option SessionHandle :=
  sessions.find? fun session => session.id == id

/-- A write through `sessions.iter_mut().find`. -/
def modifySession (id : Nat) (change : SessionHandle → SessionHandle) :
    List SessionHandle → List SessionHandle
  | [] => []
  | session :: rest =>
      if session.id = id then change session :: rest
      else session :: modifySession id change rest

theorem findSession_modifySession_self {change : SessionHandle → SessionHandle}
    (hid : ∀ session, (change session).id = session.id) (sessions : List SessionHandle)
    (id : Nat) :
    findSession (modifySession id change sessions) id =
      (findSession sessions id).map change := by
  induction sessions with
  | nil => rfl
  | cons session rest ih =>
      by_cases h : session.id = id
      · simp [modifySession, findSession, h, hid]
      · have hne : (session.id == id) = false := by simpa using h
        simpa [modifySession, findSession, h, hne] using ih

theorem findSession_modifySession_of_ne {change : SessionHandle → SessionHandle}
    (hid : ∀ session, (change session).id = session.id) (sessions : List SessionHandle)
    {id other : Nat} (hne : other ≠ id) :
    findSession (modifySession id change sessions) other = findSession sessions other := by
  induction sessions with
  | nil => rfl
  | cons session rest ih =>
      by_cases h : session.id = id
      · have hother : (id == other) = false := by simpa using Ne.symm hne
        simp [modifySession, findSession, h, hid, hother]
      · by_cases hfound : session.id = other
        · simp [modifySession, findSession, hfound, hne]
        · have hother : (session.id == other) = false := by simpa using hfound
          simpa [modifySession, findSession, h, hother] using ih

theorem isSome_findSession_modifySession {change : SessionHandle → SessionHandle}
    (hid : ∀ session, (change session).id = session.id) (sessions : List SessionHandle)
    (id other : Nat) :
    (findSession (modifySession id change sessions) other).isSome =
      (findSession sessions other).isSome := by
  by_cases h : other = id
  · rw [h, findSession_modifySession_self hid, Option.isSome_map]
  · rw [findSession_modifySession_of_ne hid sessions h]

theorem agent_findSession_modifySession {change : SessionHandle → SessionHandle}
    (hid : ∀ session, (change session).id = session.id)
    (hagent : ∀ session, (change session).agent = session.agent)
    (sessions : List SessionHandle) (id other : Nat) :
    (findSession (modifySession id change sessions) other).bind (·.agent) =
      (findSession sessions other).bind (·.agent) := by
  by_cases h : other = id
  · rw [h, findSession_modifySession_self hid]
    cases findSession sessions id with
    | none => rfl
    | some session => exact hagent session
  · rw [findSession_modifySession_of_ne hid sessions h]

theorem findSession_append (sessions later : List SessionHandle) (id : Nat) :
    findSession (sessions ++ later) id = (findSession sessions id).or (findSession later id) :=
  List.find?_append

theorem findSession_singleton (session : SessionHandle) (id : Nat) :
    findSession [session] id = if session.id = id then some session else none := by
  by_cases h : session.id = id
  · simp [findSession, h]
  · simp [findSession, h]

/-- Removing a session leaves the others. -/
theorem findSession_filter_of_ne (sessions : List SessionHandle) {id other : Nat}
    (h : other ≠ id) :
    findSession (sessions.filter fun session => session.id != id) other =
      findSession sessions other := by
  induction sessions with
  | nil => rfl
  | cons session rest ih =>
      by_cases hsession : session.id = id
      · have hother : (id == other) = false := by simpa using Ne.symm h
        simpa [findSession, hsession, hother] using ih
      · by_cases hfound : session.id = other
        · simp [findSession, hfound, h]
        · have hother : (session.id == other) = false := by simpa using hfound
          simpa [findSession, hsession, hother] using ih

theorem findSession_filter_self (sessions : List SessionHandle) (id : Nat) :
    findSession (sessions.filter fun session => session.id != id) id = none := by
  simp [findSession]

/-! ## State -/

/-- Where an event waits for a poll. -/
inductive Source where
  | session (id : Nat)
  | agent (agent : AgentId)
  deriving DecidableEq, Repr

structure DaemonState (World : Type) where
  bridge : BridgeRuntime World
  sessions : List SessionHandle
  pendingPolls : List PendingPoll
  /-- The messages sent so far, with their session. -/
  sent : List (Nat × Value)
  /-- The events pushed so far, with the buffer or queue they went to. -/
  posted : List (Source × Value)
  /-- The agents registered so far, with their session. -/
  registered : List (Nat × AgentId)

namespace DaemonState

variable {World : Type} (state : DaemonState World)

/-- A daemon that has just opened its runtime: the routing queues are empty. -/
def started (bridge : BridgeRuntime World) : DaemonState World :=
  ⟨{ bridge with routing := .new }, [], [], [], [], []⟩

def session? (id : Nat) : Option SessionHandle := findSession state.sessions id

/-- `find_session_agent`. -/
def sessionAgent (id : Nat) : Option AgentId := (state.session? id).bind (·.agent)

/-- `send_to_session`: a message to an unknown session is dropped. -/
def send (id : Nat) (message : Value) : DaemonState World :=
  if (state.session? id).isSome then { state with sent := state.sent ++ [(id, message)] }
  else state

/-- The events of a source, oldest first. -/
def queued : Source → List Value
  | .session id => ((state.session? id).map (·.events)).getD []
  | .agent agent => (state.bridge.routing.queue agent).events.map BufferedEvent.toJson

/-- Push an event to the buffer of a session, whatever it holds. -/
def pushBack (id : Nat) (event : Value) : DaemonState World :=
  if (state.session? id).isSome then
    { state with
      sessions := modifySession id (.mapEvents (· ++ [event])) state.sessions
      posted := state.posted ++ [(.session id, event)] }
  else
    state

/-- Most events a layout notice or a catalog action leaves in a buffer. -/
def sessionEventCapacity : Nat := 256

/-- The oldest event makes room in a full buffer. -/
def popFull (id : Nat) : DaemonState World :=
  { state with
    sessions := modifySession id (.mapEvents fun events =>
      if events.length ≥ sessionEventCapacity then events.tail else events) state.sessions }

/-- `push_session_event`. -/
def pushSessionEvent (id : Nat) (event : Value) : DaemonState World :=
  (state.popFull id).pushBack id event

/-- Take the events of a session and of the routing queue of an agent: what both
poll paths report. -/
def drainEvents (id : Nat) (agent : AgentId) : List Value × DaemonState World :=
  (state.queued (.session id) ++ state.queued (.agent agent),
    { state with
      sessions := modifySession id (.mapEvents fun _ => []) state.sessions
      bridge := { state.bridge with
        routing := state.bridge.routing.setQueue agent .empty } })

/-- The result of a poll. -/
def pollResult (toStringPretty : Value → String) (events : List Value) : Value :=
  Mcp.textResult toStringPretty (.object [("events", .array events)])

/-! ## Long polls -/

/-- The poll has an event to report, or its time is up. -/
def due (now : Nat) (poll : PendingPoll) : Bool :=
  !(state.queued (.session poll.sessionId)).isEmpty ||
    !(state.bridge.routing.queue poll.agent).isEmpty || decide (poll.deadline ≤ now)

/-- Answer a pending poll with what there is. -/
def answerPoll (toStringPretty : Value → String) (poll : PendingPoll) : DaemonState World :=
  let drained := state.drainEvents poll.sessionId poll.agent
  drained.2.send poll.sessionId
    (Mcp.response poll.requestId (pollResult toStringPretty drained.1))

/-- The `retain` loop of `resolve_pending_polls`: the polls that stay. -/
def resolvePolls (toStringPretty : Value → String) (now : Nat) :
    List PendingPoll → DaemonState World → List PendingPoll × DaemonState World
  | [], state => ([], state)
  | poll :: polls, state =>
      if state.due now poll then
        resolvePolls toStringPretty now polls (state.answerPoll toStringPretty poll)
      else
        let last := resolvePolls toStringPretty now polls state
        (poll :: last.1, last.2)

/-- `resolve_pending_polls`. -/
def resolvePendingPolls (toStringPretty : Value → String) (now : Nat) :
    DaemonState World :=
  let last := resolvePolls toStringPretty now state.pendingPolls state
  { last.2 with pendingPolls := last.1 }

/-! ## Connecting and leaving -/

/-- `SessionMessage::Connected`. -/
def connect (id : Nat) : DaemonState World :=
  { state with sessions := state.sessions ++ [.connected id] }

/-- `handle_hello`. -/
def handleHello (id : Nat) (info : HelloInfo) : DaemonState World :=
  if (state.session? id).isSome then
    { state with
      sessions := modifySession id (.greeted info) state.sessions
      registered := state.registered ++ [(id, info.agent)] }
  else
    state

/-- `remove_session`, and the polls of the session with it. -/
def removeSession (id : Nat) : DaemonState World :=
  { state with
    sessions := state.sessions.filter fun session => session.id != id
    pendingPolls := state.pendingPolls.filter fun poll => poll.sessionId != id }

end DaemonState
end Daemon
end MicroEmu
