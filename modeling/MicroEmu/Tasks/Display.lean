import MicroEmu.Tasks.Board

/-!
# Readers of the task board for the displays

What the bridge reads from the board when it renders a controller, composes a
display context or reports its status.  None of them changes the board.
-/

namespace MicroEmu
namespace Tasks

open Std
open Json (Value)
open Routing (AgentId)

/-- Number of Codex desktop tasks exposed to the task board. -/
def codexTaskSlots : Nat := 9

/-- The text of a title without the number a previous display put before it. -/
def unnumberedTitle (title : String) : String :=
  match Json.splitOnce title " — " with
  | none => title
  | some (number, remainder) =>
      match Json.parseUnsigned 10 (2 ^ 64 - 1) number with
      | none => title
      | some n => if 1 ≤ n ∧ n ≤ codexTaskSlots then remainder else title

/-- `display_task_title`: the title as it should appear on the strip. -/
def displayTaskTitle (slot : Nat) (title : String) : String :=
  if slot ≥ codexTaskSlots then title
  else
    let title := unnumberedTitle title
    let number := toString (slot + 1) ++ " — "
    if title = "" then toString (slot + 1)
    else number ++ Json.takeChars (160 - Json.charCount number) title

namespace TaskBoard

variable (order : WalkOrder) (board : TaskBoard)

/-- `has_tasks`. -/
def hasTasks : Bool := !board.tasks.isEmpty

/-- `has_session_tasks`. -/
def hasSessionTasks (session : Nat) : Bool :=
  board.tasks.toList.any fun entry => entry.2.ownerSession == session

/-- `selected_task`. -/
def selectedTask : Option TaskCard := board.selected.bind (board.tasks[·]?)

/-- `selected_slot`. -/
def selectedSlot (deviceId : String) : Option Nat :=
  (board.selectedOn deviceId).bind fun taskId =>
    (board.assignments[taskId]?).map (·.slot.slot)

/-- The fields a task context may contribute to the display context. -/
def contextKeys : List String :=
  ["project", "task", "model", "effort", "status", "progress", "task_id",
    "wait_reason", "prompt", "interaction_id", "short_action", "long_action"]

/-- Insert a field that may be missing. -/
def insertOptional (fields : List (String × Value)) (key : String) (value : Option Value) :
    List (String × Value) :=
  (value.map (Json.insertField fields key)).getD fields

/-- The fields of the context a task was published with. -/
def sourceContext (task : TaskCard) : List (String × Value) :=
  contextKeys.foldl
    (fun fields key => insertOptional fields key (task.context.get? key)) []

/-- The title a display context starts from: the one of the task context, else
the title of the card. -/
def contextTitle (fields : List (String × Value)) (task : TaskCard) : String :=
  ((fields.lookup "task").bind Value.asStr).getD task.title

/-- The fields of a pending interaction. -/
def interactionContext (fields : List (String × Value)) (interaction : TaskInteraction) :
    List (String × Value) :=
  let fields := Json.insertField fields "wait_reason" (.string interaction.kind)
  let fields := Json.insertField fields "prompt" (.string interaction.prompt)
  let fields := Json.insertField fields "interaction_id" (.string interaction.id)
  let fields := insertOptional fields "short_action"
    (interaction.short.map fun action => .string action.label)
  insertOptional fields "long_action"
    (interaction.long.map fun action => .string action.label)

/-- The display context of a card shown at a slot. -/
def taskDisplayContext (slot : Nat) (task : TaskCard) : Value :=
  let fields := sourceContext task
  let fields := insertOptional fields "project" (task.project.map .string)
  let fields := insertOptional fields "model" (task.model.map .string)
  let fields := insertOptional fields "effort" (task.effort.map .string)
  let fields := Json.insertField fields "task"
    (.string (displayTaskTitle slot (contextTitle fields task)))
  let fields := Json.insertField fields "status" (.string task.state.asStr)
  let fields := (task.interaction.map (interactionContext fields)).getD fields
  let fields := insertOptional fields "progress" (task.progress.map .ofNat)
  -- a task id of the task context is kept
  .object (if fields.any (·.1 == "task_id") then fields
    else fields ++ [("task_id", .string task.taskId)])

/-- `selected_display_context`. -/
def selectedDisplayContext (deviceId : String) : Option Value :=
  match (board.selectedOn deviceId).bind (board.tasks[·]?), board.selectedSlot deviceId with
  | some task, some slot => some (taskDisplayContext slot task)
  | _, _ => none

/-- One entry of `status_json`. -/
def statusEntry (task : TaskCard) : Value :=
  .object [("task_id", .string task.taskId), ("owner_session", .ofNat task.ownerSession),
    ("owner_agent", .string task.ownerAgent.asStr), ("title", .string task.title),
    ("project", .ofOptString task.project), ("workspace_path", .ofOptString task.workspacePath),
    ("model", .ofOptString task.model), ("effort", .ofOptString task.effort),
    ("state", .string task.state.asStr), ("priority", .ofNat task.priority),
    ("progress", .ofOptNat task.progress), ("started_at_ms", .ofOptNat task.startedAtMs),
    ("finished_at_ms", .ofOptNat task.finishedAtMs), ("source_slot", .ofOptNat task.sourceSlot),
    ("assignment", board.assignmentValue task.taskId),
    ("reconnect_until_ms", .ofOptNat task.reconnectUntilMs)]

/-- `status_json`. -/
def statusJson : Value :=
  .object [("selected_task_id", .ofOptString board.selected),
    ("tasks", .array ((order.values board.tasks).map board.statusEntry))]

end TaskBoard
end Tasks
end MicroEmu
