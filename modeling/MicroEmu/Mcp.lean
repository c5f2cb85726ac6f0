import MicroEmu.Json
import MicroEmu.Routing

/-!
# MCP messages

The JSON-RPC responses and tool results the bridge sends, and the tools each
agent may call.
-/

namespace MicroEmu
namespace Mcp

open Json (Value)
open Routing (AgentId)

/-- `PROTOCOL_VERSION`. -/
def protocolVersion : String := "2025-06-18"

/-- `DISPLAY_CONTEXT_INSTRUCTIONS`. -/
def displayContextInstructions : String :=
  "The RP2040 v.oai.thstatus path updates task cards only; it does not publish live dashboard " ++
  "context. Model, effort, weekly_remaining, and five_hour_remaining values shown before an " ++
  "explicit update may be standby or auto-derived placeholders and are not live context. Call " ++
  "set_display_context with the current live metadata at task start and again whenever any " ++
  "display-context value changes."

/-! ## Responses -/

/-- `response`. -/
def response (id result : Value) : Value :=
  .object [("jsonrpc", .string "2.0"), ("id", id), ("result", result)]

/-- An integer that may be negative, as a JSON number. -/
def signed (n : Int) : Value :=
  if 0 ≤ n then .ofNat n.toNat else .number (.negInt (Int64.ofInt n))

/-- `error_response`. -/
def errorResponse (id : Option Value) (code : Int) (message : String) : Value :=
  .object [("jsonrpc", .string "2.0"), ("id", id.getD .null),
    ("error", .object [("code", signed code), ("message", .string message)])]

/-- `text_result`; `toStringPretty` is the pretty printer of JSON values. -/
def textResult (toStringPretty : Value → String) (value : Value) : Value :=
  .object [("content", .array [.object [("type", .string "text"),
      ("text", .string (toStringPretty value))]]),
    ("structuredContent", value)]

/-- `tool_error`. -/
def toolError (message : String) : Value :=
  .object [("isError", .bool true),
    ("content", .array [.object [("type", .string "text"), ("text", .string message)]])]

/-- The result of a tool that answers with a value or with an error. -/
def toolResult (toStringPretty : Value → String) : Except String Value → Value
  | .ok value => textResult toStringPretty value
  | .error message => toolError message

/-- A result is a tool error. -/
def isToolError (result : Value) : Bool :=
  (result.get? "isError").bind Value.asBool == some true

/-! ## Tools -/

/-- The schema of an object without further properties. -/
def objectSchema (properties : List (String × Value)) (required : List String) : Value :=
  .object ([("type", .string "object"), ("properties", .object properties)] ++
    (if required.isEmpty then [] else [("required", .array (required.map .string))]) ++
    [("additionalProperties", .bool false)])

/-- The schema of one of several types. -/
def oneOf (types : List String) : Value := .object [("type", .array (types.map .string))]

/-- The schema of a nullable percentage. -/
def percentageSchema : Value :=
  .object [("type", .array [.string "integer", .string "null"]), ("minimum", .ofNat 0),
    ("maximum", .ofNat 100)]

/-- The schema of a nullable time. -/
def timeSchema : Value :=
  .object [("type", .array [.string "integer", .string "null"]), ("minimum", .ofNat 0)]

/-- The schema of an array of objects. -/
def objectsSchema : Value :=
  .object [("type", .string "array"), ("items", .object [("type", .string "object")])]

def toolDefinition (name description : String) (inputSchema : Value) : Value :=
  .object [("name", .string name), ("description", .string description),
    ("inputSchema", inputSchema)]

/-- The keys `emit_key` offers. -/
def emitKeys : List String :=
  ["AG00", "AG01", "AG02", "AG03", "AG04", "AG05", "ACT06", "ACT07", "ACT08", "ENC_CW",
    "ENC_CC", "ENC_CLK"]

/-- The properties of `set_display_context`. -/
def displayContextProperties : List (String × Value) :=
  let text := oneOf ["string", "null"]
  [("project", text), ("task", text), ("model", text), ("effort", text), ("status", text),
    ("progress", percentageSchema), ("task_id", text),
    ("weekly_remaining", percentageSchema), ("five_hour_remaining", percentageSchema),
    ("weekly_reset_at", timeSchema), ("five_hour_reset_at", timeSchema),
    ("wait_reason", text), ("prompt", text), ("interaction_id", text),
    ("short_action", text), ("long_action", text), ("pending_wait_count", percentageSchema)]

/-- `poll_events_tool`. -/
def pollEventsTool : Value :=
  toolDefinition "poll_events"
    ("Drain buffered controller and task events for the calling agent. With timeout_ms > 0, " ++
     "waits up to that many milliseconds for the first event to arrive (long-poll). Returns an " ++
     "object of shape \x7b\"events\": [...]\x7d. Key events have shape \x7btype:\"key\", key, " ++
     "pressed, ts\x7d; partition changes \x7btype:\"partition\", keys, slots, agents, ts\x7d; " ++
     "task-card selections \x7btype:\"task_selected\", task_id, device_id, slot, owner_session, " ++
     "legacy_key, ts\x7d; task-board updates \x7btype:\"layout_changed\", tasks, ts\x7d.")
    (objectSchema [("timeout_ms", .object [("type", .string "integer"),
      ("minimum", .ofNat 0), ("maximum", .ofNat 25000), ("default", .ofNat 0)])] [])

/-- The definitions in the tool list of `tools`. -/
def tools : List Value :=
  [toolDefinition "bridge_status"
      "Return the RP2040 bridge firmware, serial port and AJAZZ connection state."
      (objectSchema [] []),
    toolDefinition "emit_key"
      "Emit a synthetic Codex Micro key press/release through the physical bridge."
      (objectSchema [("key", .object [("type", .string "string"),
        ("enum", .array (emitKeys.map .string))])] ["key"]),
    toolDefinition "send_codex_message"
      "Send one Codex Micro JSON message to the RP2040 device."
      (objectSchema [("message", .object [("type", .string "object")])] ["message"]),
    toolDefinition "set_thread_status"
      ("Publish live task/status state to this session's assigned LCD slots as task cards. The " ++
       "colored numbered cards shown before this call are standby indicators, not task data; " ++
       "call this whenever task status changes. This updates task cards only: call " ++
       "set_display_context separately for live model, effort, and usage metadata. Use " ++
       "bridge_status to see which slots you own.")
      (objectSchema [("status", objectsSchema)] ["status"]),
    toolDefinition "publish_tasks"
      ("Publish the complete live task-card snapshot for this MCP session. This replaces the " ++
       "standby LCD indicators; call it at task start and whenever the task list or progress " ++
       "changes. Task-card updates do not change display-context model, effort, or usage " ++
       "fields; publish those separately with set_display_context.")
      (objectSchema [("tasks", objectsSchema)] ["tasks"]),
    toolDefinition "set_display_context"
      ("Publish live project/task/model/effort/status/progress and remaining weekly/five-hour " ++
       "usage metadata to the connected device displays. Call this at task start and whenever " ++
       "any display-context value changes; v.oai.thstatus and task-card tools do not update " ++
       "model, effort, or usage. A horizontal Stream Deck + swipe alternates the context and " ++
       "usage screens. Approval interactions can additionally set wait_reason, prompt, " ++
       "interaction_id, short_action, long_action, and pending_wait_count.")
      (objectSchema displayContextProperties []),
    toolDefinition "set_rgb_config"
      "Send the v.oai.rgbcfg configuration to the bridge."
      (objectSchema [("config", .object [("type", .string "object")])] ["config"]),
    toolDefinition "device_status"
      "Request device.status from the RP2040 firmware; the response is consumed by the bridge."
      (objectSchema [] []),
    pollEventsTool]

/-- The tools of an agent that only publishes and polls. -/
def publisherTools : List String :=
  ["bridge_status", "poll_events", "set_thread_status", "publish_tasks",
    "set_display_context"]

/-- `tool_available`. -/
def toolAvailable (name : String) : Option AgentId → Bool
  | some .hermes => publisherTools.contains name
  | some .zCode => publisherTools.contains name
  | some .claude => publisherTools.contains name
  | some .codex => true
  | none => true

/-- The name of a tool definition. -/
def toolName (tool : Value) : String := ((tool.get? "name").bind Value.asStr).getD ""

/-- `tools_for`. -/
def toolsFor (agent : Option AgentId) : List Value :=
  tools.filter fun tool => toolAvailable (toolName tool) agent

/-- `daemon_tools_for`: the daemon manages the RGB configuration itself. -/
def daemonToolsFor (agent : Option AgentId) : Value :=
  .object [("tools", .array ((toolsFor agent).filter fun tool =>
    toolName tool != "set_rgb_config"))]

end Mcp
end MicroEmu
