import MicroEmu.Daemon.Effects
import MicroEmu.Tasks.Merge
import MicroEmu.Tasks.Stages

/-!
# Publications that fail

`publish_tasks` checks its arguments before it touches the board, but the tool
first removes the cards of the agent's automatic feed.  A failed publication is
without effect on the board exactly when there was nothing to remove.
-/

namespace MicroEmu
namespace Tasks
namespace TaskBoard

variable {order : WalkOrder} {board : TaskBoard}

/-- No card of the board belongs to the session. -/
def OwnsNothing (board : TaskBoard) (session : Nat) : Prop :=
  ∀ (id : String) (task : TaskCard), board.tasks[id]? = some task →
    task.ownerSession ≠ session

theorem clearSession_of_ownsNothing {session : Nat} (h : board.OwnsNothing session) :
    board.clearSession order session = board := by
  have hnone : board.taskIdsWhere order (fun _ task => task.ownerSession == session) = [] := by
    apply List.eq_nil_iff_forall_not_mem.mpr
    intro id hid
    obtain ⟨task, htask, howner⟩ := mem_taskIdsWhere.mp hid
    exact h id task htask (by simpa using howner)
  simp [clearSession, hnone]

/-- The cards of a cleared session are gone. -/
theorem ownsNothing_clearSession (order : WalkOrder) (board : TaskBoard) (session : Nat) :
    (board.clearSession order session).OwnsNothing session := by
  intro id task htask howner
  by_cases hempty : (board.taskIdsWhere order
      fun _ task => task.ownerSession == session).isEmpty = true
  · rw [clearSession, if_pos hempty] at htask
    have hmem : id ∈ board.taskIdsWhere order fun _ task => task.ownerSession == session :=
      mem_taskIdsWhere.mpr ⟨task, htask, by simpa using howner⟩
    rw [List.isEmpty_iff.mp hempty] at hmem
    cases hmem
  · rw [clearSession, if_neg hempty, reallocate_tasks, foldl_removeTask_tasks] at htask
    split at htask
    · cases htask
    next hkept =>
      exact hkept (mem_taskIdsWhere.mpr ⟨task, htask, by simpa using howner⟩)

theorem clearSession_eq_self_iff {session : Nat} :
    board.clearSession order session = board ↔ board.OwnsNothing session :=
  ⟨fun h => h ▸ ownsNothing_clearSession order board session, clearSession_of_ownsNothing⟩

/-- A failed publication leaves the board as it was. -/
theorem publishTasks_error {session nowMs : Nat} {agent : Routing.AgentId}
    {arguments : Json.Value} {message : String}
    (h : (board.publishTasks order session agent arguments nowMs).1 = .error message) :
    (board.publishTasks order session agent arguments nowMs).2 = board := by
  unfold publishTasks at h ⊢
  split at h
  · rfl
  · cases h

end TaskBoard
end Tasks

namespace Daemon
namespace DaemonState

open Json (Value)
open Routing (AgentId)
open Bridge (BridgeRuntime Outside)
open Tasks (TaskBoard WalkOrder)

variable {World : Type} (out : Outside World) (order : WalkOrder)

/-- The automatic feed of the agent has no card to hand over to the session. -/
def NothingToHandOver (state : DaemonState World) (session : Nat) (agent : AgentId) : Prop :=
  ∀ feed, autoFeedSession agent = some feed → feed ≠ session →
    state.bridge.taskBoard.OwnsNothing feed

theorem handOver_taskBoard_eq_self_iff (state : DaemonState World) (session : Nat)
    (agent : AgentId) :
    (state.handOver order session agent).taskBoard = state.bridge.taskBoard ↔
      state.NothingToHandOver session agent := by
  unfold handOver NothingToHandOver
  cases hfeed : autoFeedSession agent with
  | none => simp
  | some feed =>
      by_cases hself : feed = session
      · simp [Option.filter_some, hself]
      · simp [Option.filter_some, hself, TaskBoard.clearSession_eq_self_iff]

/-- A publication that fails leaves the board of the handover. -/
theorem callPublishTasks_error (state : DaemonState World) (session : Nat) (agent : AgentId)
    (arguments : Value)
    (h : Mcp.isToolError (state.callPublishTasks out order session agent arguments).1 = true) :
    (state.callPublishTasks out order session agent arguments).2.bridge.taskBoard =
      (state.handOver order session agent).taskBoard := by
  unfold callPublishTasks at h ⊢
  simp only at h ⊢
  split at h
  next error herror => exact TaskBoard.publishTasks_error herror
  · cases h

/-- A `publish_tasks` call answered with a tool error leaves the board alone
exactly when the automatic feed of the agent has no card on it. -/
theorem publish_tasks_error_keeps_board (state : DaemonState World) (session : Nat)
    (agent : AgentId) (id arguments : Value)
    (h : Mcp.isToolError
      (state.callTool out order session agent id "publish_tasks" arguments).1 = true) :
    (state.callTool out order session agent id "publish_tasks" arguments).2.bridge.taskBoard =
        state.bridge.taskBoard ↔
      state.NothingToHandOver session agent := by
  rw [← handOver_taskBoard_eq_self_iff order state session agent,
    ← callPublishTasks_error out order state session agent arguments h]
  rfl

/-- A daemon that shows a card of the ZCode feed. -/
def feedDeck : DaemonState Unit :=
  .started { BridgeRuntime.opened () 0 with
    taskMode := true
    taskBoard := TaskBoard.run
      [(.ascending, .publishTasks 999 .zCode (.object [("tasks", .array [
        .object [("task_id", .string "build"), ("state", .string "running")]])]) 0)] {} }

theorem publish_tasks_error_keeps_board_feedDeck :
    (feedDeck.callTool Outside.idle .ascending 1 .codex .null "publish_tasks"
        .null).2.bridge.taskBoard = feedDeck.bridge.taskBoard ↔
      feedDeck.NothingToHandOver 1 .codex :=
  publish_tasks_error_keeps_board Outside.idle .ascending feedDeck 1 .codex .null .null
    (by decide +kernel)

/-- A malformed publication of a ZCode session takes the cards of the feed. -/
theorem malformed_publication_clears_feed :
    ¬ ∀ (out : Outside Unit) (order : WalkOrder) (state : DaemonState Unit) (session : Nat)
      (agent : AgentId) (id arguments : Value),
      Mcp.isToolError
        (state.callTool out order session agent id "publish_tasks" arguments).1 = true →
      (state.callTool out order session agent id "publish_tasks" arguments).2.bridge.taskBoard =
        state.bridge.taskBoard := by
  intro h
  have hboard := h Outside.idle .ascending feedDeck 1 .zCode .null .null (by decide +kernel)
  have htasks := congrArg (fun board : TaskBoard => board.tasks.isEmpty) hboard
  revert htasks
  decide +kernel

end DaemonState
end Daemon
end MicroEmu
