import MicroEmu.Codex
import MicroEmu.Json

/-!
# Display contexts and usage snapshots

The record the dashboards render, how it is read from and written to JSON, and
the cache of usage snapshots that some of its fields come from.
-/

namespace MicroEmu
namespace Bridge

open Json (Value)
open Codex (UsageAgent)

/-- `USAGE_REFRESH_INTERVAL`, in milliseconds. -/
def usageRefreshInterval : Nat := 300000

/-! ## Usage -/

/-- Remaining percentages and reset times of one agent. -/
structure UsageSnapshot where
  fiveHourRemaining : Option Nat := none
  weeklyRemaining : Option Nat := none
  fiveHourResetAt : Option Nat := none
  weeklyResetAt : Option Nat := none
  deriving DecidableEq, Repr

def UsageSnapshot.toValue (snapshot : UsageSnapshot) : Value :=
  .object [("five_hour_remaining", .ofOptNat snapshot.fiveHourRemaining),
    ("weekly_remaining", .ofOptNat snapshot.weeklyRemaining),
    ("five_hour_reset_at", .ofOptNat snapshot.fiveHourResetAt),
    ("weekly_reset_at", .ofOptNat snapshot.weeklyResetAt)]

/-- Per-agent cache of the last fetched snapshot. -/
structure UsageCache where
  codex : Option UsageSnapshot := none
  zcode : Option UsageSnapshot := none
  codexRefreshedAt : Option Nat := none
  zcodeRefreshedAt : Option Nat := none
  /-- Agents whose fetch is still running. -/
  pending : List UsageAgent := []
  deriving DecidableEq, Repr

namespace UsageCache

variable (cache : UsageCache)

def snapshot : UsageAgent → Option UsageSnapshot
  | .codex => cache.codex
  | .zCode => cache.zcode

/-- `usage_map`: an agent that was never fetched is left out. -/
def usageMap : Value :=
  .object ([UsageAgent.codex, .zCode].filterMap fun agent =>
    (cache.snapshot agent).map fun snapshot => (agent.asStr, snapshot.toValue))

/-- `refreshed_within` at the instant `now`. -/
def refreshedWithin (agent : UsageAgent) (maxAge now : Nat) : Bool :=
  let refreshedAt := match agent with
    | .codex => cache.codexRefreshedAt
    | .zCode => cache.zcodeRefreshedAt
  refreshedAt.any fun time => decide (now - time < maxAge)

/-- A fetch has to be started: none is running and the snapshot is stale. -/
def wantsRefresh (agent : UsageAgent) (now : Nat) : Bool :=
  !(cache.pending.contains agent || cache.refreshedWithin agent usageRefreshInterval now)

end UsageCache

/-! ## Display contexts -/

structure DisplayContext where
  project : Option String := none
  task : Option String := none
  model : Option String := none
  effort : Option String := none
  status : Option String := none
  progress : Option Nat := none
  taskId : Option String := none
  weeklyRemaining : Option Nat := none
  fiveHourRemaining : Option Nat := none
  weeklyResetAt : Option Nat := none
  fiveHourResetAt : Option Nat := none
  /-- The agent the usage fields belong to; derived by the bridge only. -/
  usageAgent : Option String := none
  /-- The snapshots of all agents; derived by the bridge only. -/
  agentsUsage : Option Value := none
  waitReason : Option String := none
  prompt : Option String := none
  interactionId : Option String := none
  shortAction : Option String := none
  longAction : Option String := none
  pendingWaitCount : Option Nat := none
  deriving Repr

namespace DisplayContext

/-- The fields `from_value` accepts. -/
def knownFields : List String :=
  ["usage_agent", "agents_usage", "project", "task", "model", "effort", "status",
    "progress", "task_id", "weekly_remaining", "five_hour_remaining", "weekly_reset_at",
    "five_hour_reset_at", "wait_reason", "prompt", "interaction_id", "short_action",
    "long_action", "pending_wait_count"]

/-- `string_field`. -/
def stringField (fields : List (String × Value)) (name : String) :
    Except String (Option String) :=
  match fields.lookup name with
  | none | some .null => .ok none
  | some (.string value) =>
      if Json.charCount value ≤ 160 then .ok (some value)
      else .error ("display context field " ++ name ++ " must be at most 160 characters")
  | some _ => .error ("display context field " ++ name ++ " must be a string or null")

/-- `timestamp_field`. -/
def timestampField (fields : List (String × Value)) (name : String) :
    Except String (Option Nat) :=
  match fields.lookup name with
  | none | some .null => .ok none
  | some (.number value) =>
      match value.asU64 with
      | some n => .ok (some n)
      | none => .error ("display context field " ++ name ++ " must be a non-negative integer")
  | some _ => .error ("display context field " ++ name ++ " must be an integer or null")

/-- `percentage_field`; `label` is how the error names the field. -/
def percentageField (fields : List (String × Value)) (name label : String) :
    Except String (Option Nat) :=
  match fields.lookup name with
  | none | some .null => .ok none
  | some (.number value) =>
      match value.asU64 with
      | none => .error ("display context " ++ label ++ " must be an integer")
      | some n =>
          if n > 100 then .error ("display context " ++ label ++ " must be from 0 to 100")
          else .ok (some n)
  | some _ => .error ("display context " ++ label ++ " must be an integer or null")

/-- The first key, in the order of the map, that no display context has. -/
def unknownField (fields : List (String × Value)) : Option String :=
  ((Value.sortedFields fields).map Prod.fst).find? fun key => !knownFields.contains key

/-- `from_value`. -/
def fromValue (value : Value) : Except String DisplayContext :=
  match value.asObject with
  | none => .error "display context must be an object"
  | some fields =>
      match unknownField fields with
      | some key => .error ("unknown display context field: " ++ key)
      | none => do
          let taskId ← stringField fields "task_id"
          let weeklyRemaining ←
            percentageField fields "weekly_remaining" "field weekly_remaining"
          let fiveHourRemaining ←
            percentageField fields "five_hour_remaining" "field five_hour_remaining"
          let weeklyResetAt ← timestampField fields "weekly_reset_at"
          let fiveHourResetAt ← timestampField fields "five_hour_reset_at"
          let pendingWaitCount ←
            percentageField fields "pending_wait_count" "field pending_wait_count"
          let progress ← percentageField fields "progress" "progress"
          let project ← stringField fields "project"
          let task ← stringField fields "task"
          let model ← stringField fields "model"
          let effort ← stringField fields "effort"
          let status ← stringField fields "status"
          let waitReason ← stringField fields "wait_reason"
          let prompt ← stringField fields "prompt"
          let interactionId ← stringField fields "interaction_id"
          let shortAction ← stringField fields "short_action"
          let longAction ← stringField fields "long_action"
          return {
            project := project, task := task, model := model, effort := effort
            status := status, progress := progress, taskId := taskId
            weeklyRemaining := weeklyRemaining, fiveHourRemaining := fiveHourRemaining
            weeklyResetAt := weeklyResetAt, fiveHourResetAt := fiveHourResetAt
            waitReason := waitReason, prompt := prompt, interactionId := interactionId
            shortAction := shortAction, longAction := longAction
            pendingWaitCount := pendingWaitCount }

/-- `to_value`. -/
def toValue (context : DisplayContext) : Value :=
  .object [("project", .ofOptString context.project), ("task", .ofOptString context.task),
    ("model", .ofOptString context.model), ("effort", .ofOptString context.effort),
    ("status", .ofOptString context.status), ("progress", .ofOptNat context.progress),
    ("task_id", .ofOptString context.taskId),
    ("weekly_remaining", .ofOptNat context.weeklyRemaining),
    ("five_hour_remaining", .ofOptNat context.fiveHourRemaining),
    ("weekly_reset_at", .ofOptNat context.weeklyResetAt),
    ("five_hour_reset_at", .ofOptNat context.fiveHourResetAt),
    ("usage_agent", .ofOptString context.usageAgent),
    ("agents_usage", context.agentsUsage.getD .null),
    ("wait_reason", .ofOptString context.waitReason), ("prompt", .ofOptString context.prompt),
    ("interaction_id", .ofOptString context.interactionId),
    ("short_action", .ofOptString context.shortAction),
    ("long_action", .ofOptString context.longAction),
    ("pending_wait_count", .ofOptNat context.pendingWaitCount)]

/-- `overlay_display_context`: the fields of the selected card over the base. -/
def overlay (base selected : DisplayContext) : DisplayContext where
  project := selected.project.or base.project
  task := selected.task.or base.task
  model := selected.model.or base.model
  effort := selected.effort.or base.effort
  status := selected.status.or base.status
  progress := selected.progress.or base.progress
  taskId := selected.taskId.or base.taskId
  weeklyRemaining := selected.weeklyRemaining.or base.weeklyRemaining
  fiveHourRemaining := selected.fiveHourRemaining.or base.fiveHourRemaining
  weeklyResetAt := selected.weeklyResetAt.or base.weeklyResetAt
  fiveHourResetAt := selected.fiveHourResetAt.or base.fiveHourResetAt
  usageAgent := selected.usageAgent.or base.usageAgent
  agentsUsage := base.agentsUsage
  waitReason := selected.waitReason.or base.waitReason
  prompt := selected.prompt.or base.prompt
  interactionId := selected.interactionId.or base.interactionId
  shortAction := selected.shortAction.or base.shortAction
  longAction := selected.longAction.or base.longAction
  pendingWaitCount := selected.pendingWaitCount.or base.pendingWaitCount

/-- `connection_default_context`: standby state belongs to the bridge. -/
def connectionDefault : DisplayContext where
  project := some "MICRO-EMU"
  task := some "BRIDGE"
  effort := some "LIVE"
  status := some "READY"
  progress := some 0

/-- The usage fields of a snapshot, reported for one agent. -/
def withUsage (context : DisplayContext) (usage : UsageSnapshot) (agent : UsageAgent) :
    DisplayContext :=
  { context with
    weeklyRemaining := usage.weeklyRemaining
    fiveHourRemaining := usage.fiveHourRemaining
    weeklyResetAt := usage.weeklyResetAt
    fiveHourResetAt := usage.fiveHourResetAt
    usageAgent := some agent.asStr }

end DisplayContext
end Bridge
end MicroEmu
