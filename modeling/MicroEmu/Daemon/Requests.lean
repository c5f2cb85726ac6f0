import MicroEmu.Daemon.Sessions

/-!
# Requests of the sessions

How the daemon serves a request line.  `Value.null` is the answer of a poll that
waits: the request is answered later, by the resolution of its pending poll.
-/

namespace MicroEmu
namespace Daemon

open Json (Value)
open Routing (AgentId BufferedEvent)
open Bridge (BridgeRuntime Outside)
open Tasks (WalkOrder)

namespace DaemonState

variable {World : Type} (out : Outside World) (order : WalkOrder)
variable (state : DaemonState World)

/-! ## Tools -/

/-- The bridge after a tool that acts on it alone. -/
def withBridge (bridge : BridgeRuntime World) : DaemonState World :=
  { state with bridge := bridge }

/-- The answer of a tool that acts on the bridge alone. -/
def bridgeTool (outcome : Except String Value × BridgeRuntime World) :
    Value × DaemonState World :=
  (Mcp.toolResult out.toStringPretty outcome.1, state.withBridge outcome.2)

/-- What `bridge_status` says about one session. -/
def sessionStatus (session : SessionHandle) : Value :=
  .object [("session_id", .ofNat session.id),
    ("agent", .ofOptString (session.agent.map AgentId.asStr)),
    ("instance_id", .ofOptString session.instanceId),
    ("focus_capable", .bool session.focusCapable),
    ("queue_depth", .ofNat session.events.length)]

/-- `daemon_bridge_status`. -/
def daemonBridgeStatus : Value :=
  let sessions := state.sessions.map sessionStatus
  .object (Json.insertField (Json.insertField (Json.insertField
    (state.bridge.bridgeStatus order "daemon")
    "sessions" (.array sessions))
    "sessionCount" (.ofNat sessions.length))
    "usageAgent" (.string state.bridge.usageAgent.asStr))

/-- The owner of the automatic feed of an agent. -/
def autoFeedSession : AgentId → Option Nat
  | .zCode => some Bridge.zcodePollSession
  | .hermes => some Bridge.hermesPollSession
  | .claude => some Bridge.claudePollSession
  | .codex => none

/-- The bridge a publication starts from: the cards of the automatic feed are
gone, so that the session may take their ids. -/
def handOver (session : Nat) (agent : AgentId) : BridgeRuntime World :=
  match (autoFeedSession agent).filter (· != session) with
  | none => state.bridge
  | some feed =>
      { state.bridge with taskBoard := state.bridge.taskBoard.clearSession order feed }

/-- The `layout_changed` event. -/
def layoutEvent (result : Value) (nowMs : Nat) : Value :=
  .object [("type", .string "layout_changed"), ("tasks", (result.get? "tasks").getD .null),
    ("ts", .ofNat nowMs)]

/-- The `publish_tasks` tool. -/
def callPublishTasks (session : Nat) (agent : AgentId) (arguments : Value) :
    Value × DaemonState World :=
  let asked := (state.handOver order session agent).call out.systemTime
  let published := asked.2.taskBoard.publishTasks order session agent arguments asked.1
  match published.1 with
  | .error error =>
      (Mcp.toolError error, state.withBridge { asked.2 with taskBoard := published.2 })
  | .ok result =>
      let refreshed := ({ asked.2 with
        taskBoard := published.2
        hasExplicitTaskState := true } : BridgeRuntime World).refresh out order
      let stamped := refreshed.call out.systemTime
      (Mcp.textResult out.toStringPretty result,
        (state.withBridge stamped.2).pushSessionEvent session (layoutEvent result stamped.1))

/-- `set_thread_status` in task mode: the entries become cards. -/
def publishStatus (session : Nat) (agent : AgentId) (status : Value) :
    Except String Value × BridgeRuntime World :=
  let asked := state.bridge.call out.systemTime
  let published := asked.2.taskBoard.publishLegacyStatus order session agent status asked.1
  match published.1 with
  | .error error => (.error error, { asked.2 with taskBoard := published.2 })
  | .ok result =>
      (.ok result, ({ asked.2 with
        taskBoard := published.2
        hasExplicitTaskState := true } : BridgeRuntime World).refresh out order)

/-- Forward the status of Codex to the HID side; a failed write is not reported. -/
def forwardStatus (bridge : BridgeRuntime World) (agent : AgentId) (status : Value) :
    BridgeRuntime World :=
  if agent = .codex ∧ bridge.hasSerial then
    (bridge.sendCodex out (.object [("m", .string "v.oai.thstatus"), ("p", status)])).2
  else
    bridge

/-- `set_thread_status` outside task mode: the entries are fused with those of the
other agents and shown. -/
def fuseStatus (agent : AgentId) (status : Value) :
    Except String Value × BridgeRuntime World :=
  let merged := state.bridge.fusedLcd.mergeFromAgent agent status state.bridge.partition
  match merged.1 with
  | .error error => (.error error, { state.bridge with fusedLcd := merged.2 })
  | .ok fused =>
      let kept := { state.bridge with fusedLcd := merged.2, hasExplicitTaskState := true }
      let updated := Value.object [("updated", .bool true), ("agent", .string agent.asStr)]
      match kept.controller with
      | none => (.ok updated, forwardStatus out kept agent status)
      | some device =>
          let shown := kept.call (out.applyThreadStatus device (.array fused))
          match shown.1 with
          | .error error =>
              (.error ("controller apply failed: " ++ error), shown.2.detachController out)
          | .ok () => (.ok updated, forwardStatus out shown.2 agent status)

/-- `call_set_thread_status`. -/
def callSetThreadStatus (session : Nat) (agent : AgentId) (arguments : Value) :
    Except String Value × BridgeRuntime World :=
  match arguments.get? "status" with
  | none => (.error "set_thread_status requires status", state.bridge)
  | some status =>
      if status.asArray.isNone then (.error "status must be an array", state.bridge)
      else if state.bridge.taskMode then state.publishStatus out order session agent status
      else state.fuseStatus out agent status

/-- The longest a poll waits, in milliseconds. -/
def maxPollTimeout : Nat := 25000

/-- The `timeout_ms` of a poll. -/
def pollTimeout (arguments : Value) : Nat :=
  min (((arguments.get? "timeout_ms").bind Value.asU64).getD 0) maxPollTimeout

/-- Register a poll that waits, in place of the ones the session has. -/
def deferPoll (session : Nat) (agent : AgentId) (id : Value) (timeoutMs : Nat) :
    DaemonState World :=
  let asked := state.bridge.call out.instant
  { state.withBridge asked.2 with
    pendingPolls := (state.pendingPolls.filter fun poll => poll.sessionId != session) ++
      [⟨session, agent, asked.1 + timeoutMs, id⟩] }

/-- The `poll_events` tool. -/
def callPollEvents (session : Nat) (agent : AgentId) (id arguments : Value) :
    Value × DaemonState World :=
  let drained := state.drainEvents session agent
  if !drained.1.isEmpty then (pollResult out.toStringPretty drained.1, drained.2)
  else if 0 < pollTimeout arguments then
    (.null, drained.2.deferPoll out session agent id (pollTimeout arguments))
  else
    (pollResult out.toStringPretty [], drained.2)

/-- The tool named in a call, with its arguments. -/
def callTool (session : Nat) (agent : AgentId) (id : Value) (name : String)
    (arguments : Value) : Value × DaemonState World :=
  match name with
  | "bridge_status" =>
      (Mcp.textResult out.toStringPretty (state.daemonBridgeStatus order), state)
  | "emit_key" => state.bridgeTool out (state.bridge.callEmitKey out arguments)
  | "send_codex_message" =>
      state.bridgeTool out (state.bridge.callSendCodexMessage out arguments)
  | "set_thread_status" =>
      state.bridgeTool out (state.callSetThreadStatus out order session agent arguments)
  | "publish_tasks" => state.callPublishTasks out order session agent arguments
  | "set_display_context" =>
      state.bridgeTool out (state.bridge.callSetDisplayContext out arguments)
  | "set_rgb_config" =>
      if state.bridge.taskMode then
        (Mcp.toolError "set_rgb_config is daemon-managed; configure RGB on the bridge", state)
      else state.bridgeTool out (state.bridge.callSetRgbConfig out arguments)
  | "device_status" => state.bridgeTool out (state.bridge.callDeviceStatus out)
  | "poll_events" => state.callPollEvents out session agent id arguments
  | name => (Mcp.toolError ("unknown MCP tool: " ++ name), state)

/-- `call_tool_for`. -/
def callToolFor (session : Nat) (agent : AgentId) (id request : Value) :
    Value × DaemonState World :=
  let params := (request.get? "params").getD .null
  match (params.get? "name").bind Value.asStr with
  | none => (Mcp.toolError "tools/call requires params.name", state)
  | some name =>
      if !Mcp.toolAvailable name (some agent) then
        (Mcp.toolError ("tool " ++ name ++ " is not available for agent " ++ agent.asStr),
          state)
      else
        state.callTool out order session agent id name ((params.get? "arguments").getD .null)

/-! ## Methods -/

/-- A list in the format `{:?}` gives it. -/
def debugList (items : List String) : String := "[" ++ String.intercalate ", " items ++ "]"

/-- The instructions an agent gets on `initialize`. -/
def instructions (agent : AgentId) : String :=
  let keys := (state.bridge.partition.keysFor agent).map fun key => "\"" ++ key ++ "\""
  let slots := (state.bridge.partition.slotsFor agent).map fun slot => toString slot
  agent.asStr ++ " agent. Use bridge_status first. Your keys: " ++ debugList keys ++
    ", LCD slots: " ++ debugList slots ++ ". Use poll_events to receive key presses, " ++
    "partition changes, and task-card events. The colored numbered LCD cards and READY " ++
    "dashboard shown before an explicit update are standby indicators only. Publish live task " ++
    "state with publish_tasks or set_thread_status. " ++ Mcp.displayContextInstructions

/-- The result of `initialize`. -/
def initializeResult (agent : AgentId) : Value :=
  .object [("protocolVersion", .string Mcp.protocolVersion),
    ("capabilities", .object [("tools", .object [("listChanged", .bool false)])]),
    ("serverInfo", .object [("name", .string "micro-emu-bridge"),
      ("version", .string "1.2.0")]),
    ("instructions", .string (state.instructions agent))]

/-- The result of a method; an unknown one has none. -/
def callMethod (session : Nat) (agent : AgentId) (id : Value) (method : String)
    (request : Value) : Option Value × DaemonState World :=
  match method with
  | "initialize" => (some (state.initializeResult agent), state)
  | "ping" => (some (.object []), state)
  | "resources/list" => (some (.object [("resources", .array [])]), state)
  | "resources/templates/list" => (some (.object [("resourceTemplates", .array [])]), state)
  | "tools/list" => (some (Mcp.daemonToolsFor (some agent)), state)
  | "tools/call" =>
      let called := state.callToolFor out order session agent id request
      (some called.1, called.2)
  | _ => (none, state)

/-- The method a request names. -/
def requestMethod (request : Value) : Option String :=
  (request.get? "method").bind Value.asStr

/-- A method that is never answered. -/
def isNotification (method : String) : Bool := Json.startsWith method "notifications/"

def isNull : Value → Bool
  | .null => true
  | _ => false

/-- A request with an id and a method, from a session whose agent is known. -/
def answerRequest (session : Nat) (agent : AgentId) (id : Value) (method : String)
    (request : Value) : DaemonState World :=
  let answer := state.callMethod out order session agent id method request
  match answer.1 with
  | none =>
      answer.2.send session
        (Mcp.errorResponse (some id) (-32601) ("unknown MCP method: " ++ method))
  | some result =>
      if isNull result then answer.2 else answer.2.send session (Mcp.response id result)

/-- `handle_request`. -/
def handleRequest (session : Nat) (request : Value) : DaemonState World :=
  match requestMethod request, request.get? "id" with
  | none, none => state
  | none, some id =>
      state.send session (Mcp.errorResponse (some id) (-32600) "MCP request requires method")
  | some _, none => state
  | some method, some id =>
      if isNotification method then state
      else
        match state.sessionAgent session with
        | none =>
            state.send session (Mcp.errorResponse (some id) (-32000)
              "daemon session must send a valid bridge hello first")
        | some agent => state.answerRequest out order session agent id method request

/-! ## Sessions -/

/-- `SessionMessage::Hello`: Codex and ZCode also refresh the usage figures. -/
def hello (session : Nat) (info : HelloInfo) : DaemonState World :=
  let greeted := state.handleHello session info
  let refreshed (agent : Codex.UsageAgent) : DaemonState World :=
    greeted.withBridge (((greeted.bridge.requestUsageRefresh out agent).autoDeriveDisplayContext
      out order).refresh out order)
  match info.agent with
  | .codex => refreshed .codex
  | .zCode => refreshed .zCode
  | _ => greeted

/-- `SessionMessage::Disconnected` and `SessionMessage::Error` of a session that is
no plugin: its cards are leased, its handle and its polls are dropped. -/
def endSession (session : Nat) : DaemonState World :=
  let asked := state.bridge.call out.systemTime
  let leased := ({ asked.2 with
    taskBoard := asked.2.taskBoard.disconnectSession session asked.1 } :
      BridgeRuntime World).refresh out order
  (state.withBridge leased).removeSession session

/-! ## Task events -/

/-- The live sessions of an agent. -/
def sessionsOf (agent : AgentId) : List Nat :=
  (state.sessions.filter (·.agent == some agent)).map (·.id)

/-- The agent whose automatic feed has this owner. -/
def feedAgent (session : Nat) : Option AgentId :=
  if session = Bridge.zcodePollSession then some .zCode
  else if session = Bridge.hermesPollSession then some .hermes
  else if session = Bridge.claudePollSession then some .claude
  else none

/-- One pending task event: a catalog action goes to the newest session of its
agent, an event of an automatic feed to every session of its agent, any other to
its owner. -/
def routeTaskEvent (event : Nat × Value) : DaemonState World :=
  match Bridge.catalogActionAgent event.1 with
  | some agent =>
      match (state.sessionsOf agent).max? with
      | none => state
      | some newest => state.pushSessionEvent newest event.2
  | none =>
      match feedAgent event.1 with
      | some agent =>
          (state.sessionsOf agent).foldl (fun state id => state.pushBack id event.2) state
      | none => state.pushBack event.1 event.2

/-- The distribution of the pending task events. -/
def routeTaskEvents : DaemonState World :=
  state.bridge.pendingTaskEvents.foldl routeTaskEvent
    (state.withBridge { state.bridge with pendingTaskEvents := [] })

end DaemonState
end Daemon
end MicroEmu
