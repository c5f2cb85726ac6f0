import MicroEmu.Feeds.Basic
import Mathlib.Data.List.Sort

/-!
# The Hermes feed of a remote backend

Hermes Desktop caches the responses of its backend.  A snapshot takes the newest cached
listing of sessions, turns each session into a task, and dates the current turn from the
cached transcript of the session, if that covers the listing's activity.
-/

namespace MicroEmu
namespace Feeds

open Std
open Json (Value F64)

namespace HermesState

/-! ## Sessions of a listing -/

/-- `cached_session_active`. -/
def cachedSessionActive (session : Value) : Bool :=
  ((session.get? "is_active").bind Value.asBool).getD false

/-- `cached_session_activity`. -/
def cachedSessionActivity (session : Value) : F64 :=
  (((session.get? "last_active").or ((session.get? "last_activity_at").or
    (session.get? "started_at"))).bind Value.asF64).getD 0

/-- `is_pending_approval_status`. -/
def isPendingApprovalStatus (value : String) : Bool :=
  ["approval", "approval_pending", "approval_required", "approval_request",
    "awaiting_approval", "needs_approval", "permission_request", "permission_required",
    "pending_approval"].contains (statusWord value)

/-- A marker field says that an approval is pending. -/
def isApprovalMarker (marker : Value) : Bool :=
  marker.asBool == some true || marker.asObject.isSome || marker.asArray.isSome ||
    marker.asStr.any isPendingApprovalStatus

/-- `value_has_pending_approval_marker`. -/
def valueHasPendingApprovalMarker (value : Value) : Bool :=
  value.asObject.isSome &&
    (["pending_approval", "approval_pending", "approval_required", "permission_request"].any
        (fun key => (value.get? key).any isApprovalMarker) ||
      ["status", "state", "kind", "type", "display_kind"].any
        (fun key => (strField value key).any isPendingApprovalStatus))

/-- The title of a session: the first of these fields that is not blank. -/
def sessionTitle (session : Value) : Option String :=
  ["title", "display_name", "preview"].findSome? fun key =>
    (strField session key).filter fun value => Json.trim value ≠ ""

/-- The state of the task of a session. -/
def sessionStateText (session : Value) : String :=
  let endReason := (strField session "end_reason").getD ""
  if valueHasPendingApprovalMarker session then "waiting"
  else if cachedSessionActive session then "running"
  else if contains endReason "error" || contains endReason "fail" then "error"
  else "completed"

/-- A session the board does not show. -/
def isHidden (session : Value) : Bool :=
  let source := (strField session "source").getD ""
  source == "delegate" || source == "batch" ||
    ((session.get? "archived").bind Value.asBool).getD false

/-- `build_cached_task`, before its turn is dated.  The host gives the last component of a
path. -/
def buildCachedTask (fileName : String → Option String) (session : Value) : Option Value :=
  match strField session "id" with
  | none => none
  | some id =>
      if isHidden session then none
      else
        let title := (sessionTitle session).getD id
        let taskId := "hermes:" ++ id
        let cwd := strField session "cwd"
        let project := (cwd.map fun cwd => (fileName cwd).getD cwd).or
          (strField session "profile")
        let model := strField session "model"
        let state := sessionStateText session
        let priority :=
          if cachedSessionActive session || valueHasPendingApprovalMarker session then
            taskPriorityActive
          else
            taskPriorityIdle
        some (.object [("task_id", .string taskId), ("title", .string title),
          ("project", .ofOptString project), ("workspace_path", .ofOptString cwd),
          ("model", .ofOptString model), ("state", .string state),
          ("timing_authoritative", .bool true), ("started_at_ms", .null),
          ("finished_at_ms", .null), ("priority", .ofNat priority),
          ("context", .object [("project", .ofOptString project), ("task", .string title),
            ("model", .ofOptString model), ("status", .string state),
            ("task_id", .string taskId)])])

/-! ## Turns -/

/-- `seconds_to_ms`: the conversion to `u128` saturates. -/
def secondsToMs (value : F64) : Nat :=
  if value ≤ 0 then 0 else min (Json.f64Round (Json.toF64 (value * 1000))).toNat u128Max

/-- The `timestamp` closure of `apply_cached_turn_timing`. -/
def timestamp (message : Value) : F64 :=
  ((message.get? "timestamp").bind Value.asF64).getD 0

/-- `max_by` on the timestamps: the last of the greatest. -/
def latestMessage : List Value → Option Value
  | [] => none
  | message :: messages =>
      some (messages.foldl
        (fun best other => if timestamp best ≤ timestamp other then other else best) message)

/-- A reply that ended its turn. -/
def isTerminal (message : Value) : Bool :=
  strField message "role" == some "assistant" &&
    (strField message "finish_reason").any fun finish =>
      finish != "" && finish != "tool_calls" && finish != "tool-calls"

/-- The dates of the current turn, if the transcript covers the listing's activity: when
its prompt was sent, and when its last message was written if that ended it. -/
def cachedTurnDates (session : Value) (messages : List Value) : Option (F64 × Option F64) := do
  let latest ← latestMessage messages
  -- the transcript may be of a different turn
  if Json.toF64 (timestamp latest + Json.toF64 (1 / 1000)) < cachedSessionActivity session then
    none
  else do
    let prompt ← latestMessage (messages.filter fun message =>
      strField message "role" == some "user")
    if cachedSessionActive session && isTerminal latest then none
    else if timestamp prompt ≤ 0 then none
    else some (timestamp prompt, if isTerminal latest then some (timestamp latest) else none)

/-- `value[key] = field` on an object. -/
def setField (value : Value) (key : String) (field : Value) : Value :=
  match value with
  | .object fields => .object (Json.insertField fields key field)
  | other => other

/-- `apply_cached_turn_timing`.  A date that does not fit `u64` panics. -/
def applyCachedTurnTiming (task session : Value) (messages : List Value) :
    Except String Value :=
  match cachedTurnDates session messages with
  | none => .ok task
  | some (prompt, finished) => do
      let startedAt ← jsonMs (secondsToMs prompt)
      let task := setField task "started_at_ms" startedAt
      match finished with
      | some finished =>
          if strField task "state" = some "completed" then do
            let finishedAt ← jsonMs (secondsToMs finished)
            return setField task "finished_at_ms" finishedAt
          else
            return task
      | none => return task

/-! ## Snapshots -/

/-- Transcripts by session id. -/
abbrev Transcripts := ExtTreeMap String (List Value)

/-- The listing of a response, in either of the two shapes. -/
def responseSessions (response : Value) : Option (List Value) :=
  (((response.get? "recents").bind (·.get? "sessions")).or (response.get? "sessions")).bind
    Value.asArray

/-- The transcript of a response joins the ones of newer responses. -/
def addTranscript (details : Transcripts) (response : Value) : Transcripts :=
  match strField response "session_id", (response.get? "messages").bind Value.asArray with
  | some id, some messages => details.insertIfNew id messages
  | _, _ => details

/-- The first listing of the responses, newest first, and all their transcripts.  A
response that cannot be read or is not JSON is skipped. -/
def collectResponses : List (Option Value) → Option (List Value) → Transcripts →
    Option (List Value) × Transcripts
  | [], listing, details => (listing, details)
  | none :: responses, listing, details => collectResponses responses listing details
  | some response :: responses, listing, details =>
      let details := addTranscript details response
      collectResponses responses (listing.or (responseSessions response)) details

/-- The order of the snapshot: active sessions first, then the latest activity. -/
def sessionLe (left right : Value) : Bool :=
  if cachedSessionActive left = cachedSessionActive right then
    decide (cachedSessionActivity right ≤ cachedSessionActivity left)
  else
    cachedSessionActive left

/-- The task of a session with the dates of its transcript. -/
def datedTask (task session : Value) (details : Transcripts) : Except String Value :=
  match (strField session "id").bind (details[·]?) with
  | none => .ok task
  | some messages => applyCachedTurnTiming task session messages

/-- At most so many tasks of the sessions; the sessions behind them are not looked at. -/
def cachedTasks (fileName : String → Option String) (details : Transcripts) :
    Nat → List Value → Except String (List Value)
  | 0, _ | _, [] => .ok []
  | count + 1, session :: sessions =>
      match buildCachedTask fileName session with
      | none => cachedTasks fileName details (count + 1) sessions
      | some task => do
          let task ← datedTask task session details
          let tasks ← cachedTasks fileName details count sessions
          return task :: tasks

/-- `parse_remote_cache_candidates`, with what is read from the candidates. -/
def parseRemoteCacheCandidates (fileName : String → Option String)
    (responses : List (Option Value)) (maxTasks : Nat) : Except String (Option Value) :=
  let (listing, details) := collectResponses responses none ∅
  match listing with
  | none => .ok none
  | some sessions => do
      let tasks ← cachedTasks fileName details maxTasks (sessions.insertionSort (sessionLe · ·))
      return some (.object [("tasks", .array tasks)])

end HermesState

end Feeds
end MicroEmu
