import MicroEmu.Bridge.Route

/-!
# Tools of the bridge

What the MCP tools that act on the bridge alone compute.  A tool answers with a
value or with the text of a tool error, beside the bridge it leaves.
-/

namespace MicroEmu
namespace Bridge

open Json (Value)
open Routing (AgentId)
open Tasks (WalkOrder)

namespace BridgeRuntime

variable {World : Type} (out : Outside World) (order : WalkOrder)
variable (bridge : BridgeRuntime World)

/-- Send messages in a row; the first failure ends it. -/
def sendAll : List Value → BridgeRuntime World → Except String Unit × BridgeRuntime World
  | [], bridge => (.ok (), bridge)
  | message :: messages, bridge =>
      let written := bridge.sendCodex out message
      match written.1 with
      | .error error => (.error error, written.2)
      | .ok () => sendAll messages written.2

/-- `call_emit_key`. -/
def callEmitKey (arguments : Value) : Except String Value × BridgeRuntime World :=
  match (arguments.get? "key").bind Value.asStr with
  | none => (.error "emit_key requires a key", bridge)
  | some key =>
      match Codex.messagesForSyntheticKey key with
      | .error error => (.error error, bridge)
      | .ok messages =>
          let written := sendAll out messages bridge
          (written.1.map fun _ =>
            .object [("key", .string key), ("messagesSent", .ofNat messages.length)],
            written.2)

/-- `send_tool_message`: the number of reports of a message that was sent. -/
def sendToolMessage (message : Value) : Except String Nat × BridgeRuntime World :=
  match Codex.frameJson out.toVec message with
  | .error error => (.error error, bridge)
  | .ok reports =>
      let written := bridge.sendCodex out message
      (written.1.map fun _ => reports.length, written.2)

/-- `call_send_codex_message`. -/
def callSendCodexMessage (arguments : Value) : Except String Value × BridgeRuntime World :=
  match arguments.get? "message" with
  | none => (.error "send_codex_message requires message", bridge)
  | some message =>
      if message.asObject.isSome then
        let written := bridge.sendToolMessage out message
        (written.1.map fun reports => .object [("reportsSent", .ofNat reports)], written.2)
      else
        (.error "message must be a JSON object", bridge)

/-- `call_set_rgb_config`. -/
def callSetRgbConfig (arguments : Value) : Except String Value × BridgeRuntime World :=
  match arguments.get? "config" with
  | none => (.error "set_rgb_config requires config", bridge)
  | some config =>
      if config.asObject.isSome then
        let written := bridge.sendToolMessage out
          (.object [("m", .string "v.oai.rgbcfg"), ("p", config)])
        (written.1.map fun reports => .object [("reportsSent", .ofNat reports)], written.2)
      else
        (.error "config must be an object", bridge)

/-- `call_device_status`: the request takes the next sequence number as its id. -/
def callDeviceStatus : Except String Value × BridgeRuntime World :=
  let id := bridge.sequence
  let numbered := { bridge with sequence := (bridge.sequence + 1) % 2 ^ 16 }
  let written := numbered.sendToolMessage out
    (.object [("m", .string "device.status"), ("id", .ofNat id)])
  (written.1.map fun reports =>
    .object [("requestId", .ofNat id), ("reportsSent", .ofNat reports)], written.2)

/-! ## The display context tool -/

/-- The usage fields an agent pushes are labelled with the reported agent. -/
def labelUsage (context : DisplayContext) : DisplayContext :=
  if context.weeklyRemaining.isSome ∨ context.fiveHourRemaining.isSome then
    { context with usageAgent := some bridge.usageAgent.asStr }
  else
    context

/-- Push a context to the auxiliary controllers; one that fails is shut down and
dropped, but its device stays on the board. -/
def pushContextAux (context : DisplayContext) : List AuxController → BridgeRuntime World →
    List AuxController × BridgeRuntime World
  | [], bridge => ([], bridge)
  | aux :: rest, bridge =>
      let shown := bridge.call (out.applyDisplayContext aux.device context)
      match shown.1 with
      | .error _ => pushContextAux context rest (shown.2.tell (out.shutdown aux.device))
      | .ok () =>
          let last := pushContextAux context rest shown.2
          (aux :: last.1, last.2)

/-- Push a context to the primary controller; one that fails is detached. -/
def pushContextPrimary (context : DisplayContext) :
    Option String × BridgeRuntime World :=
  match bridge.controller with
  | none => (none, bridge)
  | some device =>
      let shown := bridge.call (out.applyDisplayContext device context)
      match shown.1 with
      | .error error => (some error, shown.2.detachController out)
      | .ok () => (none, shown.2)

/-- `call_set_display_context`. -/
def callSetDisplayContext (arguments : Value) : Except String Value × BridgeRuntime World :=
  match DisplayContext.fromValue arguments with
  | .error error => (.error error, bridge)
  | .ok parsed =>
      let context := bridge.labelUsage parsed
      let stored := { bridge with
        lastDisplayContext := some context
        hasExplicitDisplayContext := true }
      let rendered := stored.displayContextForController context stored.taskDeviceId
      let primary := stored.pushContextPrimary out rendered
      let last := pushContextAux out rendered primary.2.auxControllers
        { primary.2 with auxControllers := [] }
      let shown := { last.2 with auxControllers := last.1 }
      match primary.1 with
      | some error => (.error ("Stream Deck dashboard disconnected: " ++ error), shown)
      | none => (.ok (.object [("updated", .bool true), ("context", context.toValue)]), shown)

/-! ## Status -/

/-- What `bridge_status` says about one agent. -/
def agentStatus (agent : AgentId) : Value :=
  .object [("events", .ofNat (bridge.routing.queue agent).events.length),
    ("keys", .array ((bridge.partition.keysFor agent).map .string)),
    ("slots", .array ((bridge.partition.slotsFor agent).map .ofNat))]

/-- What `bridge_status` says about one device. -/
def deviceStatus (deviceId : String) (slots : Nat) (connected : Bool) : Value :=
  .object [("id", .string deviceId), ("taskSlots", .ofNat slots),
    ("connected", .bool connected),
    ("selectedTask", .ofOptString (bridge.taskBoard.selectedOn deviceId))]

/-- `bridge_status`. -/
def bridgeStatus (mode : String) : List (String × Value) :=
  [("type", .string "bridge-ready"), ("version", .ofNat 2),
    ("firmware", .string bridge.firmware), ("port", .string bridge.port),
    ("rp2040", .bool bridge.hasSerial),
    ("ajazzConnected", .bool (bridge.controller.any (·.kind == .ajazz))),
    ("controller", .object [("kind", .string bridge.controllerChoice.asStr),
      ("connected", .bool bridge.controller.isSome),
      ("model", .ofOptString (bridge.controller.map (·.model))),
      ("serial", .ofOptString (bridge.controller.bind (·.serial)))]),
    ("displayContext", (bridge.lastDisplayContext.map DisplayContext.toValue).getD .null),
    ("codexPresentation", bridge.lastThreadStatus.getD .null),
    ("agents", .object [("codex", bridge.agentStatus .codex),
      ("zcode", bridge.agentStatus .zCode), ("hermes", bridge.agentStatus .hermes),
      ("claude", bridge.agentStatus .claude)]),
    ("partition", .object [("owners", .array bridge.partition.ownersJson)]),
    ("taskMode", .bool bridge.taskMode),
    ("devices", .array (bridge.deviceStatus bridge.taskDeviceId bridge.taskSlotCount
        bridge.controller.isSome ::
      bridge.auxControllers.map fun aux => bridge.deviceStatus aux.deviceId aux.slots true)),
    ("taskBoard", bridge.taskBoard.statusJson order), ("mode", .string mode)]

end BridgeRuntime
end Bridge
end MicroEmu
