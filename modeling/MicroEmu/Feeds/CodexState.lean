import MicroEmu.Feeds.Basic

/-!
# The Codex feed

Codex keeps its threads in a database, the lifecycle of each thread in an append-only
rollout file, and the focus of its windows in a log.  A snapshot lists the threads of the
database with the lifecycle of their rollouts.

The text of a line becomes a JSON value by `serde_json::from_str`, which is a parameter
here: the feed uses whether a line is a value and which one, never how it is written.
-/

namespace MicroEmu
namespace Feeds

open Std
open Json (Value)
open Tasks (TaskState WalkOrder)

/-! ## Lifecycles -/

/-- `Lifecycle`. -/
structure Lifecycle where
  state : Option TaskState := none
  startedAtMs : Option Nat := none
  finishedAtMs : Option Nat := none
  /-- The turn whose lifecycle is reflected above. -/
  activeTurnId : Option String := none
  /-- Prompts of the escalated calls without a result, by call id. -/
  pendingApprovalCalls : ExtTreeMap String String := ∅

instance : Inhabited Lifecycle := ⟨{}⟩

/-- `approval_prompt`: the quoted justification of a call. -/
def approvalPrompt (input : String) : String :=
  let unnamed := "Approval required in Codex"
  match (Json.splitOnce input "justification").bind fun parts =>
      (Json.splitOnce parts.2 ":").map fun parts => parts.2.toList.dropWhile Json.isWhitespace with
  | none => unnamed
  | some [] => unnamed
  | some (quote :: rest) =>
      if quote = '"' ∨ quote = '\'' then
        let prompt := Json.trim (String.ofList (rest.takeWhile (· ≠ quote)))
        if prompt = "" then unnamed else Json.takeChars 160 prompt
      else
        unnamed

/-- Both are there and differ. -/
def differ {α : Type} [DecidableEq α] : Option α → Option α → Bool
  | some active, some event => decide (active ≠ event)
  | _, _ => false

/-- `terminal_event_is_stale`. -/
def terminalEventIsStale (lifecycle : Lifecycle) (eventTurnId : Option String)
    (eventStartedAtMs : Option Nat) : Bool :=
  differ lifecycle.activeTurnId eventTurnId || differ lifecycle.startedAtMs eventStartedAtMs

/-- The `millis` closure of `apply_lifecycle_event`. -/
def payloadMillis (payload : Value) (key : String) : Option Nat :=
  ((payload.get? key).bind Value.asU64).map (· * 1000)

/-- The `turn_id` closure of `apply_lifecycle_event`. -/
def payloadTurnId (payload : Value) : Option String :=
  ((payload.get? "turn_id").bind Value.asStr).filter (· ≠ "")

/-- The input of a call asks for escalated permissions. -/
def escalates (input : String) : Bool :=
  contains input "require_escalated" ||
    contains input "sandbox_permissions" && contains input "escalated"

namespace Lifecycle

variable (lifecycle : Lifecycle)

/-- The `response_item` part of `apply_lifecycle_event`. -/
def applyResponseItem (payload : Value) : Lifecycle :=
  match strField payload "type" with
  | some "custom_tool_call" =>
      match strField payload "input" with
      | none => lifecycle
      | some input =>
          if escalates input then
            match strField payload "call_id" with
            | none => lifecycle
            | some callId =>
                { lifecycle with
                  pendingApprovalCalls :=
                    lifecycle.pendingApprovalCalls.insert callId (approvalPrompt input) }
          else
            lifecycle
  | some "custom_tool_call_output" =>
      match strField payload "call_id" with
      | none => lifecycle
      | some callId =>
          { lifecycle with
            pendingApprovalCalls := lifecycle.pendingApprovalCalls.erase callId }
  | _ => lifecycle

/-- The `task_started` event. -/
def start (payload : Value) : Lifecycle :=
  { lifecycle with
    state := some .running
    startedAtMs := payloadMillis payload "started_at"
    finishedAtMs := none
    activeTurnId := payloadTurnId payload }

/-- The `task_complete` and `turn_aborted` events, which differ in the state they leave. -/
def finish (state : TaskState) (payload : Value) : Lifecycle :=
  let turnId := payloadTurnId payload
  let startedAt := payloadMillis payload "started_at"
  -- a delayed event of an older turn does not end a newer one
  if terminalEventIsStale lifecycle turnId startedAt then lifecycle
  else
    { lifecycle with
      state := some state
      startedAtMs := startedAt.or lifecycle.startedAtMs
      finishedAtMs := payloadMillis payload "completed_at"
      activeTurnId := turnId.or lifecycle.activeTurnId }

/-- The `event_msg` part of `apply_lifecycle_event`. -/
def applyEventMsg (payload : Value) : Lifecycle :=
  match strField payload "type" with
  | some "task_started" => lifecycle.start payload
  | some "task_complete" => lifecycle.finish .completed payload
  | some "turn_aborted" => lifecycle.finish .paused payload
  | _ => lifecycle

/-- `apply_lifecycle_event`. -/
def applyLifecycleEvent (value : Value) : Lifecycle :=
  match (value.get? "payload").filter fun payload => payload.asObject.isSome with
  | none => lifecycle
  | some payload =>
      match strField value "type" with
      | some "response_item" => lifecycle.applyResponseItem payload
      | some "event_msg" => lifecycle.applyEventMsg payload
      | _ => lifecycle

/-- The state a card of this lifecycle shows: an open approval overrides the rest. -/
def derivedState : TaskState :=
  if lifecycle.pendingApprovalCalls.isEmpty then lifecycle.state.getD .queued else .waiting

end Lifecycle

/-! ## Rollout files -/

/-- `RolloutCursor`. -/
structure RolloutCursor where
  path : String := ""
  offset : Nat := 0
  lifecycle : Lifecycle := {}
  /-- `some true` once the rollout has named the thread that refers to it. -/
  threadIdVerified : Option Bool := none

instance : Inhabited RolloutCursor := ⟨{}⟩

/-- `rollout_thread_id`. -/
def rolloutThreadId (value : Value) : Option String :=
  if strField value "type" = some "session_meta" then
    (value.get? "payload").bind (strField · "id")
  else
    none

/-- What `refresh_rollout` makes of the text of a complete line. -/
def applyRolloutLine (fromStr : String → Option Value) (threadId : String)
    (cursor : RolloutCursor) (line : String) : RolloutCursor :=
  match fromStr line with
  | none => cursor
  | some value =>
      match rolloutThreadId value with
      | some rolloutThreadId =>
          if rolloutThreadId = threadId then { cursor with threadIdVerified := some true }
          else { cursor with threadIdVerified := some false, lifecycle := {} }
      | none =>
          if cursor.threadIdVerified = some true then
            { cursor with lifecycle := cursor.lifecycle.applyLifecycleEvent value }
          else
            cursor

/-- `refresh_rollout` on the thread's cursor, with what the poll meets at the path. -/
def refreshCursor (fromStr : String → Option Value) (threadId path : String)
    (found : Option FileView) (cursor : RolloutCursor) : RolloutCursor :=
  match found with
  | none => cursor
  | some file =>
      let cursor := if cursor.path ≠ path ∨ file.length < cursor.offset then { path } else cursor
      if file.length = cursor.offset then cursor
      else match file.content with
        | none => cursor
        | some bytes =>
            let (_, offset, cursor) :=
              readFrom (applyRolloutLine fromStr threadId) cursor.offset cursor bytes
            { cursor with offset }

/-! ## The focus log -/

/-- `FocusCursor`. -/
structure FocusCursor where
  path : String := ""
  offset : Nat := 0
  selectedTaskId : Option String := none
  deriving DecidableEq, Repr

/-- `CodexStateCache`. -/
structure CodexStateCache where
  rollouts : ExtTreeMap String RolloutCursor := ∅
  focus : FocusCursor := {}

instance : Inhabited CodexStateCache := ⟨{}⟩

/-- `refresh_rollout`. -/
def refreshRollout (fromStr : String → Option Value) (cache : CodexStateCache)
    (threadId path : String) (found : Option FileView) : Lifecycle × CodexStateCache :=
  let cursor := (cache.rollouts[threadId]?).getD {}
  let cursor := refreshCursor fromStr threadId path found cursor
  (cursor.lifecycle, { cache with rollouts := cache.rollouts.insert threadId cursor })

/-- The log line tells of the focus of the primary window. -/
def isFocusLine (line : String) : Bool :=
  contains line "thread_stream_view_activity_changed" &&
    contains line "rendererWindowAppearance=primary" &&
      contains line "rendererWindowFocused=true" && contains line "rendererWindowVisible=true"

/-- The thread a log line names. -/
def focusThreadId (line : String) : Option String :=
  ((splitWhitespace line).findSome? (Json.stripPrefix · "conversationId=")).filter fun id =>
    id ≠ "" ∧ ¬Json.startsWith id "client-new-thread:" = true

/-- `apply_focus_event`. -/
def applyFocusEvent (cursor : FocusCursor) (line : String) : FocusCursor :=
  if !isFocusLine line then cursor
  else
    match (if contains line " active=true " then some true
      else if contains line " active=false " then some false
      else none), focusThreadId line with
    | some true, some threadId => { cursor with selectedTaskId := some threadId }
    | some false, some threadId =>
        if cursor.selectedTaskId = some threadId then { cursor with selectedTaskId := none }
        else cursor
    | _, _ => cursor

/-- `refresh_focused_task`, with the newest primary log and what the poll meets there. -/
def refreshFocusedTask (newest : Option (String × Option FileView)) (cursor : FocusCursor) :
    Option String × FocusCursor :=
  match newest with
  | none | some (_, none) => (none, cursor)
  | some (path, some file) =>
      let cursor := if cursor.path ≠ path ∨ file.length < cursor.offset then { path } else cursor
      if file.length = cursor.offset then (cursor.selectedTaskId, cursor)
      else match file.content with
        | none => (none, cursor)
        | some bytes =>
            let (completed, offset, cursor) := readFrom applyFocusEvent cursor.offset cursor bytes
            (if completed then cursor.selectedTaskId else none, { cursor with offset })

/-! ## Snapshots -/

/-- A row of the `threads` table, as the query of the snapshot selects it. -/
structure ThreadRow where
  threadId : String
  fallbackTitle : String
  cwd : Option String
  model : Option String
  effort : Option String
  rolloutPath : String
  recencyAtMs : Nat
  updatedAtMs : Nat
  deriving DecidableEq, Repr

/-- What a snapshot meets outside: the titles of the session index, the rows of the
database (`none` where one cannot be read), the files, the newest focus log, and the last
component of a path of the host. -/
structure CodexWorld where
  titles : ExtTreeMap String String
  rows : List (Option ThreadRow)
  files : String → Option FileView
  newestPrimaryLog : Option (String × Option FileView)
  fileName : String → Option String

/-- The card of a row, with the lifecycle of its rollout. -/
def codexTask (order : WalkOrder) (world : CodexWorld) (row : ThreadRow) (sourceSlot : Nat)
    (lifecycle : Lifecycle) : Except String Value := do
  let approvalPrompt := (order.values lifecycle.pendingApprovalCalls).head?
  let awaitingApproval := approvalPrompt.isSome
  let state := (if awaitingApproval then some .waiting else lifecycle.state).getD .queued
  let startedAt ← jsonOptMs lifecycle.startedAtMs
  let finishedAt ← jsonOptMs lifecycle.finishedAtMs
  return .object [
    ("task_id", .string row.threadId),
    ("title", .string ((world.titles[row.threadId]?).getD row.fallbackTitle)),
    ("project", .ofOptString ((row.cwd.bind world.fileName).filter (· ≠ ""))),
    ("model", .ofOptString row.model),
    ("effort", .ofOptString row.effort),
    ("state", .string state.asStr),
    ("context", match approvalPrompt with
      | none => .null
      | some prompt => .object [("wait_reason", .string "approval"), ("prompt", .string prompt)]),
    ("priority", .ofNat (if state.active || awaitingApproval then taskPriorityActive
      else taskPriorityIdle)),
    ("source_slot", .ofNat sourceSlot),
    ("legacy_key", if sourceSlot < Tasks.codexHidSlots then
      .string ("AG0" ++ toString sourceSlot) else .null),
    ("started_at_ms", startedAt),
    ("finished_at_ms", finishedAt),
    ("timing_authoritative", .bool true),
    ("recency_at_ms", .ofNat row.recencyAtMs),
    ("updated_at_ms", .ofNat row.updatedAtMs)]


/-- The loop of the snapshot over the rows.  A row that cannot be read ends it. -/
def codexTasks (order : WalkOrder) (fromStr : String → Option Value) (world : CodexWorld) :
    List (Option ThreadRow) → Nat → CodexStateCache →
      Except String (Option (List Value)) × CodexStateCache
  | [], _, cache => (.ok (some []), cache)
  | none :: _, _, cache => (.ok none, cache)
  | some row :: rows, sourceSlot, cache =>
      let (lifecycle, cache) := refreshRollout fromStr cache row.threadId row.rolloutPath
        (world.files row.rolloutPath)
      match codexTask order world row sourceSlot lifecycle with
      | .error message => (.error message, cache)
      | .ok task =>
          match codexTasks order fromStr world rows (sourceSlot + 1) cache with
          | (.ok (some tasks), cache) => (.ok (some (task :: tasks)), cache)
          | failed => failed

/-- `read_codex_snapshot_from`, once the database is open. -/
def readCodexSnapshot (order : WalkOrder) (fromStr : String → Option Value)
    (world : CodexWorld) (cache : CodexStateCache) :
    Except String (Option Value) × CodexStateCache :=
  match codexTasks order fromStr world world.rows 0 cache with
  | (.error message, cache) => (.error message, cache)
  | (.ok none, cache) => (.ok none, cache)
  | (.ok (some tasks), cache) =>
      let (focused, focus) :=
        if tasks.isEmpty then (none, cache.focus)
        else refreshFocusedTask world.newestPrimaryLog cache.focus
      let selected := focused.filter fun selected =>
        tasks.any fun task => strField task "task_id" == some selected
      (.ok (some (.object [("selected_task_id", .ofOptString selected),
        ("tasks", .array tasks)])), { cache with focus })

end Feeds
end MicroEmu
