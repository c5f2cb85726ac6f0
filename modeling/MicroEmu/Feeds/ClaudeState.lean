import MicroEmu.Feeds.Basic
import Mathlib.Data.List.Sort

/-!
# The Claude feed

Every running Claude Code process keeps a JSON record with its name, working directory
and status.  A snapshot turns the records of live interactive sessions into tasks, the
active ones first, and names the model of the latest reply in each transcript.
-/

namespace MicroEmu
namespace Feeds

open Json (Value)

namespace ClaudeState

/-- `MAX_RECORD_BYTES`. -/
def maxRecordBytes : Nat := 64 * 1024

/-- An entry of the `sessions` directory: its extension, its metadata, and the record in it
if it can be read and is JSON. -/
structure RecordFile where
  extension : Option String
  isFile : Bool
  length : Nat
  record : Option Value
  deriving Repr

/-- What a snapshot meets outside: the entries of the `sessions` directory, in the order
the directory lists them, the end of a session's transcript, the values of its lines, and
the running processes. -/
structure Home where
  sessions : Option (List RecordFile)
  transcriptTail : String → Option String
  fromStr : String → Option Value
  alive : Nat → Option String → Bool

/-! ## Records -/

inductive SessionState where
  | running
  | waiting
  | error
  | completed
  | queued
  deriving DecidableEq, Repr

namespace SessionState

def isActive : SessionState → Bool
  | .running | .waiting => true
  | _ => false

def asStr : SessionState → String
  | .running => "running"
  | .waiting => "waiting"
  | .error => "error"
  | .completed => "completed"
  | .queued => "queued"

end SessionState

/-- A string field that is not blank. -/
def namedField (record : Value) (key : String) : Option String :=
  (strField record key).filter fun text => Json.trim text ≠ ""

/-- `record_time`. -/
def recordTime (record : Value) (key : String) : Nat :=
  ((record.get? key).bind Value.asU64).getD 0

/-- `session_state`. -/
def sessionState (record : Value) : SessionState :=
  match statusWord ((strField record "status").getD "") with
  | "busy" | "running" | "working" | "thinking" | "streaming" => .running
  | "waiting" | "waiting_for_input" | "needs_input" | "awaiting_input" | "permission"
  | "permission_request" | "awaiting_permission" | "needs_approval" | "approval_required"
  | "pending_approval" => .waiting
  | "error" | "failed" | "crashed" => .error
  | "idle" | "done" | "completed" =>
      -- a fresh session reports idle within moments of starting
      if recordTime record "statusUpdatedAt" >
          saturatingAddU64 (recordTime record "startedAt") 5000 then
        .completed
      else
        .queued
  | _ => .queued

/-- The record of a live interactive session. -/
def liveRecord (home : Home) (file : RecordFile) : Option Value :=
  if file.extension = some "json" ∧ file.isFile = true ∧ file.length ≤ maxRecordBytes then do
    let record ← file.record
    let pid ← ((record.get? "pid").bind Value.asU64).filter (· < 2 ^ 32)
    let interactive := (strField record "kind").all (· == "interactive")
    if interactive && home.alive pid (strField record "procStart") then some record else none
  else
    none

/-- The order of the snapshot: active turns first, then the most recently touched ones. -/
def recordLe (left right : Value) : Bool :=
  if (sessionState left).isActive = (sessionState right).isActive then
    decide (recordTime right "updatedAt" ≤ recordTime left "updatedAt")
  else
    (sessionState left).isActive

/-! ## Tasks -/

/-- A separator of a path. -/
def isSeparator (c : Char) : Bool := c == '\\' || c == '/'

/-- `project_name`: the last component of a path. -/
def projectName (directory : String) : String :=
  let reversed := directory.toList.reverse.dropWhile isSeparator
  let name := (reversed.takeWhile fun c => !isSeparator c).reverse
  if name = [] then directory else String.ofList name

/-- The id a card is keyed by: the host session outlives a `/clear`. -/
def stableId (record : Value) (sessionId : String) : String :=
  (namedField record "hostSessionId").getD sessionId

/-- `build_task`. -/
def buildTask (record : Value) (model : Option String) : Option Value :=
  (namedField record "sessionId").map fun sessionId =>
    let taskId := "claude:" ++ stableId record sessionId
    let cwd := namedField record "cwd"
    let project := cwd.map projectName
    let title := (((strField record "name").map Json.trim).filter (· ≠ "")).getD
      (project.getD (Json.takeChars 8 sessionId))
    let state := sessionState record
    let priority := if state.isActive then taskPriorityActive else taskPriorityIdle
    let task := [("task_id", .string taskId), ("title", .string title),
      ("project", .ofOptString project), ("workspace_path", .ofOptString cwd),
      ("model", .ofOptString model), ("state", .string state.asStr),
      ("priority", .ofNat priority),
      ("context", .object [("project", .ofOptString project), ("task", .string title),
        ("model", .ofOptString model), ("status", .string state.asStr),
        ("task_id", .string taskId)])]
    let started := recordTime record "statusUpdatedAt"
    -- the status timestamp of a busy record is the start of its turn
    if state.isActive && decide (started > 0) then
      .object (task ++ [("started_at_ms", .ofNat started), ("finished_at_ms", .null),
        ("timing_authoritative", .bool true)])
    else
      .object task

/-- The pieces between newlines. -/
def splitNewlines : List Char → List (List Char)
  | [] => [[]]
  | c :: rest =>
      match splitNewlines rest with
      | [] => [[c]]
      | line :: lines => if c = '\n' then [] :: line :: lines else (c :: line) :: lines

/-- `str::lines`: a carriage return before the newline belongs to it, and nothing behind
the last newline is no line. -/
def textLines (text : String) : List String :=
  let pieces := splitNewlines text.toList
  let ended := pieces.dropLast.map fun line =>
    if line.getLast? = some '\r' then line.dropLast else line
  let last := pieces.getLast?.toList.filter (· ≠ [])
  (ended ++ last).map String.ofList

/-- The model of a line of a transcript, if it is a reply that names one. -/
def replyModel (home : Home) (line : String) : Option String := do
  let entry ← home.fromStr line
  if strField entry "type" = some "assistant" then
    let message ← entry.get? "message"
    (strField message "model").filter fun model => model ≠ "" ∧ ¬Json.startsWith model "<" = true
  else
    none

/-- `transcript_model`. -/
def transcriptModel (home : Home) (sessionId : String) : Option String :=
  if contains sessionId "/" || contains sessionId "\\" || contains sessionId ".." then none
  else (home.transcriptTail sessionId).bind fun tail =>
    (textLines tail).reverse.findSome? (replyModel home)

/-- The records a snapshot lists. -/
def listedRecords (home : Home) (files : List RecordFile) (maxTasks : Nat) : List Value :=
  ((files.filterMap (liveRecord home)).insertionSort (recordLe · ·)).take maxTasks

/-- The task of a listed record. -/
def recordTask (home : Home) (record : Value) : Option Value :=
  buildTask record ((strField record "sessionId").bind (transcriptModel home))

/-- `read_claude_snapshot_from`. -/
def readClaudeSnapshotFrom (home : Home) (maxTasks : Nat) : Option Value :=
  home.sessions.map fun files =>
    if maxTasks = 0 then .object [("tasks", .array [])]
    else .object [("tasks",
      .array ((listedRecords home files maxTasks).filterMap (recordTask home)))]

end ClaudeState

end Feeds
end MicroEmu
