import MicroEmu.Tasks.Basic

/-!
# Reading a task entry

`parse_task` turns one JSON entry of a publication into a card.  The same
parser serves the three publication paths: an MCP task names its own id, while
the legacy status array and the HID feed pass the id and key label they
synthesise.  Each check of the source is one function below, in the order the
source makes them, with the source's error texts.
-/

namespace MicroEmu
namespace Tasks

open Json (Value)
open Routing (AgentId)

/-! ## Field parsers -/

/-- `parse_timestamp_ms`. -/
def parseTimestampMs : Option Value → Except String (Option Nat)
  | none | some .null => .ok none
  | some (.number value) =>
      match value.asU64 with
      | some ms => .ok (some ms)
      | none => .error "task timestamp must be a non-negative integer"
  | _ => .error "task timestamp must be an integer or null"

/-- `parse_color`. -/
def parseColor : Option Value → Except String (Option Nat)
  | none | some .null => .ok none
  | some (.number value) =>
      match value.asU64 with
      -- only the low 24 bits of a number are a color
      | some v => .ok (some (v % 0x1000000))
      | none => .error "color must be an integer or #RRGGBB"
  | some (.string value) =>
      let raw := (Json.stripPrefix value "#").getD value
      -- the length is in bytes, and the radix parser accepts a leading `+`
      if raw.utf8ByteSize ≠ 6 then .error "color must be #RRGGBB"
      else match Json.parseUnsigned 16 (2 ^ 32 - 1) raw with
        | some v => .ok (some v)
        | none => .error "color must be #RRGGBB"
  | _ => .error "color must be an integer, #RRGGBB, or null"

/-- `parse_brightness`: a fraction up to one or a percentage. -/
def parseBrightness : Option Value → Except String Nat
  | none | some .null => .ok 100
  | some (.number value) =>
      let value := value.asF64
      -- a value up to one is a fraction, so `1` means one hundred percent
      let normalized := if value ≤ 1 then Json.toF64 (value * 100) else value
      if 0 ≤ normalized ∧ normalized ≤ 100 then
        .ok (Json.f64Round normalized).toNat
      else
        .error "brightness must be from 0 to 100"
  | _ => .error "brightness must be numeric or null"

/-- The priority check of `parse_task`. -/
def parsePriority (item : Value) : Except String Nat :=
  -- a priority that is no unsigned integer is not an error
  let priority := ((item.get? "priority").bind Value.asU64).getD 50
  if priority > 100 then .error "priority must be from 0 to 100"
  else .ok priority

/-- The progress check of `parse_task`.  The conversion to `u8` is what bounds
the value, not the range its message names. -/
def parseProgress (item : Value) : Except String (Option Nat) :=
  match item.get? "progress" with
  | none | some .null => .ok none
  | some value =>
      match value.asU64 with
      | none => .error "progress must be an integer"
      | some progress =>
          if progress < 256 then .ok (some progress)
          else .error "progress must be from 0 to 100"

/-! ## Interactions -/

/-- The `text` closure of `parse_interaction`. -/
def interactionText (object : Value) (key : String) (required : Bool) :
    Except String (Option String) :=
  match object.get? key with
  | some (.string value) =>
      if Json.charCount value ≤ 160 ∧ Json.trim value ≠ "" then .ok (some value)
      else .error ("interaction field " ++ key ++
        " must be non-empty and at most 160 characters")
  | none =>
      if required then .error ("interaction field " ++ key ++ " is required")
      else .ok none
  | some _ => .error ("interaction field " ++ key ++ " must be a string")

/-- One required text of an interaction action. -/
def interactionActionText (item : Value) (key field : String) :
    Except String String :=
  match (item.get? field).bind Value.asStr with
  | some text => .ok text
  | none => .error ("interaction action " ++ key ++ "." ++ field ++ " is required")

/-- The `action` closure of `parse_interaction`. -/
def interactionAction (object : Value) (key : String) :
    Except String (Option TaskAction) :=
  match object.get? key with
  | none => .ok none
  | some item =>
      match item.asObject with
      | none => .error ("interaction action " ++ key ++ " must be an object")
      | some _ => do
          let id ← interactionActionText item key "id"
          let label ← interactionActionText item key "label"
          let action ← interactionActionText item key "action"
          return some { id, label, action, payload := (item.get? "payload").getD .null }

/-- The action an approval offers when the source names none. -/
def approvalDefault (id label : String) : TaskAction :=
  { id, label, action := id, payload := .null }

/-- `parse_interaction`. -/
def parseInteraction : Option Value → Except String (Option TaskInteraction)
  | none => .ok none
  | some value =>
      match value.asObject with
      | none => .error "interaction must be an object"
      | some _ => do
          let id ← interactionText value "id" true
          let kind ← interactionText value "kind" true
          let prompt ← interactionText value "prompt" true
          let expiresAtMs ← parseTimestampMs (value.get? "expires_at_ms")
          let short ← interactionAction value "short"
          let long ← interactionAction value "long"
          let approval := kind == some "approval"
          return some {
            id := id.getD "", kind := kind.getD "", prompt := prompt.getD ""
            short := if approval then
              short.or (some (approvalDefault "approve" "Approve")) else short
            long := if approval then
              long.or (some (approvalDefault "reject" "Reject")) else long
            expiresAtMs }

/-! ## The card -/

/-- Task id and legacy key: synthesised by the caller, or read from the entry. -/
def taskIdentity (item : Value) :
    Option (String × String) → Except String (String × Option String)
  | some (id, key) => .ok (id, some key)
  | none =>
      match ((item.get? "task_id").or (item.get? "id")).bind Value.asStr with
      | none => .error "task_id is required"
      | some id => .ok (id, (item.get? "legacy_key").bind Value.asStr)

/-- The length check on the task id. -/
def checkTaskId (taskId : String) : Except String Unit :=
  if taskId = "" ∨ Json.charCount taskId > 160 then
    .error "task_id must be from 1 to 160 characters"
  else
    .ok ()

/-- The `text_field` closure of `parse_task`. -/
def textField (item : Value) (key : String) : Option String :=
  let context := (item.get? "context").getD .null
  ((((item.get? key).or (context.get? key)).bind Value.asStr).map Json.trim
    |>.filter (· ≠ "")).map (Json.takeChars 160)

/-- The title shown on the card; a title that repeats the key label is none. -/
def cardTitle (item : Value) (legacyKey : Option String) : String :=
  let title := ((textField item "title").or ((textField item "task").or
    (((item.get? "t").bind Value.asStr).map (Json.takeChars 160)))).getD ""
  if legacyKey = some title then "" else title

/-- `object.get("color").or_else(|| object.get("c"))`. -/
def colorField (item : Value) : Option Value :=
  (item.get? "color").or (item.get? "c")

/-- The lifecycle state a HID color stands for; read on keyed cards only. -/
def hidColorState (item : Value) (legacyKey : Option String) : Option TaskState :=
  match legacyKey, colorField item with
  | some _, some value =>
      match parseColor (some value) with
      | .ok (some color) => TaskState.fromHidColor color
      | _ => none
  | _, _ => none

/-- The state of the card: color, then explicit state, then LCD effect. -/
def cardState (item : Value) (legacyKey : Option String) :
    Except String TaskState :=
  let explicitState := ((item.get? "state").or (item.get? "status")).bind Value.asStr
  let effect := (item.get? "e").bind Value.asU64
  match hidColorState item legacyKey with
  | some state => .ok state
  | none =>
      match explicitState with
      | some state => TaskState.parse (some state)
      | none =>
          if legacyKey.isSome ∧ effect = some 1 then .ok .queued
          else if legacyKey.isSome ∧ effect.getD 1 > 1 then .ok .running
          else TaskState.parse none

/-- Logical position: explicit, or the digits of an `AG0x` key. -/
def cardSourceSlot (item : Value) (legacyKey : Option String) : Option Nat :=
  ((item.get? "source_slot").bind Value.asU64).or
    ((legacyKey.bind (Json.stripPrefix · "AG0")).bind
      (Json.parseUnsigned 10 (2 ^ 64 - 1)))

/-- The entry brings its own lifecycle timestamps. -/
def timingAuthoritative (item : Value) : Bool :=
  ((item.get? "timing_authoritative").bind Value.asBool).getD false ||
    (item.get? "started_at_ms").isSome || (item.get? "finished_at_ms").isSome

/-- `parse_task`. -/
def parseTask (session : Nat) (agent : AgentId) (item : Value) (nowMs : Nat)
    (legacy : Option (String × String)) : Except String TaskCard :=
  match item.asObject with
  | none => .error "each task must be an object"
  | some _ => do
      let (taskId, key) ← taskIdentity item legacy
      let _ ← checkTaskId taskId
      let legacyKey := key.filter (· ≠ "")
      let interaction ← parseInteraction (item.get? "interaction")
      let state ← cardState item legacyKey
      let priority ← parsePriority item
      let progress ← parseProgress item
      let color ← parseColor (colorField item)
      let brightness ← parseBrightness ((item.get? "brightness").or (item.get? "b"))
      let explicitStartedAt ← parseTimestampMs (item.get? "started_at_ms")
      let explicitFinishedAt ← parseTimestampMs (item.get? "finished_at_ms")
      let authoritative := timingAuthoritative item
      return {
        taskId
        ownerSession := session
        ownerAgent := agent
        title := cardTitle item legacyKey
        project := textField item "project"
        workspacePath := textField item "workspace_path"
        model := textField item "model"
        effort := textField item "effort"
        state, priority, color, brightness, progress
        context := (item.get? "context").getD .null
        legacyKey
        sourceSlot := cardSourceSlot item legacyKey
        timingAuthoritative := authoritative
        updatedAtMs := nowMs
        -- a source that owns the timings starts and finishes nothing by its state
        startedAtMs := explicitStartedAt.or
          (if !authoritative && state.active then some nowMs else none)
        finishedAtMs := explicitFinishedAt.or
          (if !authoritative && state == .completed then some nowMs else none)
        reconnectUntilMs := none
        interaction }

end Tasks
end MicroEmu
