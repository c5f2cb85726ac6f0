import MicroEmu.Daemon.Loop

/-!
# What a request does

Whatever a request asks for, it does one of a few things to what the sessions
see: it is ignored, it is refused with an error, it is answered by a tool that
leaves the queues alone, it is answered with the events it drains, or it becomes
a pending poll.  Everything proved about the responses and the events starts
from these cases.
-/

namespace MicroEmu
namespace Daemon

open Json (Value)
open Routing (AgentId BufferedEvent)
open Bridge (BridgeRuntime Outside)
open Tasks (WalkOrder)

/-! ## The events of a message -/

/-- The events a result reports; only that of a poll does. -/
def resultEvents (result : Value) : List Value :=
  (((result.get? "structuredContent").bind (·.get? "events")).bind Value.asArray).getD []

/-- The events of a message. -/
def eventsOf (message : Value) : List Value :=
  ((message.get? "result").map resultEvents).getD []

/-- The id a message answers; an invalid request is no request for a response. -/
def answeredId (message : Value) : Option Value :=
  match ((message.get? "error").bind (·.get? "code")) with
  | some (.number code) => if code = .negInt (-32600) then none else message.get? "id"
  | _ => message.get? "id"

@[simp] theorem answeredId_response (id result : Value) :
    answeredId (Mcp.response id result) = some id := rfl

/-- An answer at once, without events. -/
structure Plain (result : Value) : Prop where
  isNull : DaemonState.isNull result = false
  events : resultEvents result = []

theorem plain_toolError (message : String) : Plain (Mcp.toolError message) := ⟨rfl, rfl⟩

theorem plain_textResult (pretty : Value → String) {value : Value}
    (h : value.get? "events" = none) : Plain (Mcp.textResult pretty value) := by
  refine ⟨rfl, ?_⟩
  have hcontent : (Mcp.textResult pretty value).get? "structuredContent" = some value := rfl
  simp [resultEvents, hcontent, h]

/-- A tool of the bridge reports no events. -/
def Eventless (outcome : Except String Value) : Prop :=
  ∀ value, outcome = .ok value → value.get? "events" = none

theorem eventless_error (message : String) : Eventless (.error message) :=
  fun _ h => by cases h

theorem eventless_ok {value : Value} (h : value.get? "events" = none) :
    Eventless (.ok value) := by
  intro _ hvalue
  cases hvalue
  exact h

theorem eventless_map {α : Type} (outcome : Except String α) {f : α → Value}
    (h : ∀ a, (f a).get? "events" = none) : Eventless (outcome.map f) := by
  cases outcome with
  | error message => exact eventless_error message
  | ok a => exact eventless_ok (h a)

theorem Eventless.plain {outcome : Except String Value} (h : Eventless outcome)
    (pretty : Value → String) : Plain (Mcp.toolResult pretty outcome) := by
  cases outcome with
  | error message => exact plain_toolError message
  | ok value => exact plain_textResult pretty (h value rfl)

/-! ## The tools of the bridge -/

section Tools

variable {World : Type} (out : Outside World) (order : WalkOrder)
variable (bridge : BridgeRuntime World) (arguments : Value)

theorem eventless_callEmitKey : Eventless (bridge.callEmitKey out arguments).1 := by
  unfold BridgeRuntime.callEmitKey
  split
  · exact eventless_error _
  · split
    · exact eventless_error _
    · exact eventless_map _ fun _ => rfl

theorem eventless_callSendCodexMessage :
    Eventless (bridge.callSendCodexMessage out arguments).1 := by
  unfold BridgeRuntime.callSendCodexMessage
  split
  · exact eventless_error _
  · split
    · exact eventless_map _ fun _ => rfl
    · exact eventless_error _

theorem eventless_callSetRgbConfig :
    Eventless (bridge.callSetRgbConfig out arguments).1 := by
  unfold BridgeRuntime.callSetRgbConfig
  split
  · exact eventless_error _
  · split
    · exact eventless_map _ fun _ => rfl
    · exact eventless_error _

theorem eventless_callDeviceStatus : Eventless (bridge.callDeviceStatus out).1 :=
  eventless_map _ fun _ => rfl

theorem eventless_callSetDisplayContext :
    Eventless (bridge.callSetDisplayContext out arguments).1 := by
  unfold BridgeRuntime.callSetDisplayContext
  split
  · exact eventless_error _
  · simp only
    split
    · exact eventless_error _
    · exact eventless_ok rfl

end Tools

namespace DaemonState

variable {World : Type} (out : Outside World) (order : WalkOrder)
variable {state : DaemonState World} {session : Nat} {agent : AgentId}

/-! ## Tools of the daemon -/

theorem daemonBridgeStatus_events (state : DaemonState World) :
    (state.daemonBridgeStatus order).get? "events" = none := by
  simp only [daemonBridgeStatus, Value.get?, Value.asObject, Option.bind_some]
  rw [Json.lookup_insertField_of_ne _ _ (by decide),
    Json.lookup_insertField_of_ne _ _ (by decide),
    Json.lookup_insertField_of_ne _ _ (by decide)]
  rfl

theorem frame_forwardStatus (bridge : BridgeRuntime World) (agent : AgentId)
    (status : Value) : (forwardStatus out bridge agent status).frame = bridge.frame := by
  unfold forwardStatus
  split
  · exact BridgeRuntime.frame_sendCodex out bridge _
  · rfl

theorem publishStatus_spec (state : DaemonState World) (session : Nat) (agent : AgentId)
    (status : Value) :
    Eventless (state.publishStatus out order session agent status).1 ∧
      (state.publishStatus out order session agent status).2.frame = state.bridge.frame := by
  unfold publishStatus Tasks.TaskBoard.publishLegacyStatus
  simp only
  cases Tasks.TaskBoard.legacyCards session agent status
    (state.bridge.call out.systemTime).1 with
  | error message => exact ⟨eventless_error _, rfl⟩
  | ok cards => exact ⟨eventless_ok rfl, BridgeRuntime.frame_refresh out order _⟩

theorem fuseStatus_spec (state : DaemonState World) (agent : AgentId) (status : Value) :
    Eventless (state.fuseStatus out agent status).1 ∧
      (state.fuseStatus out agent status).2.frame = state.bridge.frame := by
  unfold fuseStatus
  simp only
  split
  · exact ⟨eventless_error _, rfl⟩
  · split
    · exact ⟨eventless_ok rfl, frame_forwardStatus out _ agent status⟩
    · split
      · exact ⟨eventless_error _, BridgeRuntime.frame_detachController out _⟩
      · exact ⟨eventless_ok rfl, frame_forwardStatus out _ agent status⟩

theorem callSetThreadStatus_spec (state : DaemonState World) (session : Nat)
    (agent : AgentId) (arguments : Value) :
    Eventless (state.callSetThreadStatus out order session agent arguments).1 ∧
      (state.callSetThreadStatus out order session agent arguments).2.frame =
        state.bridge.frame := by
  unfold callSetThreadStatus
  split
  · exact ⟨eventless_error _, rfl⟩
  · split
    · exact ⟨eventless_error _, rfl⟩
    · split
      · exact publishStatus_spec out order state session agent _
      · exact fuseStatus_spec out state agent _

/-- How long a tool waits for an event: only a poll with a timeout does. -/
def callWait (name : String) (arguments : Value) : Option Nat :=
  if name = "poll_events" ∧ 0 < pollTimeout arguments then some (pollTimeout arguments)
  else none

/-- What a tool may do: its answer and the state it leaves. -/
inductive ToolEffect (state : DaemonState World) (session : Nat) (agent : AgentId)
    (id : Value) (wait : Option Nat) : Value → DaemonState World → Prop
  /-- The tool answers and leaves the queues alone. -/
  | plain {result : Value} {bridge : BridgeRuntime World} (hresult : Plain result)
      (hbridge : bridge.frame = state.bridge.frame) :
      ToolEffect state session agent id wait result (state.withBridge bridge)
  /-- The tool answers and notifies the session. -/
  | notified {result event : Value} {bridge : BridgeRuntime World} (hresult : Plain result)
      (hbridge : bridge.frame = state.bridge.frame) :
      ToolEffect state session agent id wait result
        ((state.withBridge bridge).pushSessionEvent session event)
  /-- The tool answers with the events it drains. -/
  | polled (pretty : Value → String) :
      ToolEffect state session agent id wait
        (pollResult pretty (state.drainEvents session agent).1)
        (state.drainEvents session agent).2
  /-- There is no event, and the answer waits. -/
  | deferred {timeoutMs : Nat} (hwait : wait = some timeoutMs)
      (hempty : (state.drainEvents session agent).1 = []) :
      ToolEffect state session agent id wait .null
        ((state.drainEvents session agent).2.deferPoll out session agent id timeoutMs)

theorem toolEffect_unchanged {id result : Value} {wait : Option Nat}
    (hresult : Plain result) : ToolEffect out state session agent id wait result state := by
  have heffect : ToolEffect out state session agent id wait result
      (state.withBridge state.bridge) := .plain hresult rfl
  exact heffect

theorem toolEffect_bridgeTool {id : Value} {wait : Option Nat}
    {outcome : Except String Value × BridgeRuntime World}
    (hevents : Eventless outcome.1) (hframe : outcome.2.frame = state.bridge.frame) :
    ToolEffect out state session agent id wait (state.bridgeTool out outcome).1
      (state.bridgeTool out outcome).2 :=
  .plain (hevents.plain _) hframe

theorem frame_handOver (state : DaemonState World) (session : Nat) (agent : AgentId) :
    (state.handOver order session agent).frame = state.bridge.frame := by
  unfold handOver
  split <;> rfl

theorem toolEffect_callPublishTasks {id : Value} {wait : Option Nat} (arguments : Value) :
    ToolEffect out state session agent id wait
      (state.callPublishTasks out order session agent arguments).1
      (state.callPublishTasks out order session agent arguments).2 := by
  have hframe := frame_handOver order state session agent
  unfold callPublishTasks Tasks.TaskBoard.publishTasks
  simp only
  cases (((state.handOver order session agent).call out.systemTime).2.taskBoard.publishedCards
    session agent arguments ((state.handOver order session agent).call out.systemTime).1) with
  | error message => exact .plain (plain_toolError message) hframe
  | ok cards =>
      exact .notified (plain_textResult _ rfl)
        ((BridgeRuntime.frame_refresh out order _).trans hframe)

theorem toolEffect_callPollEvents {id : Value} (arguments : Value) :
    ToolEffect out state session agent id (callWait "poll_events" arguments)
      (state.callPollEvents out session agent id arguments).1
      (state.callPollEvents out session agent id arguments).2 := by
  unfold callPollEvents
  simp only
  split
  · exact .polled _
  next hempty =>
    have hnil : (state.drainEvents session agent).1 = [] := by simpa using hempty
    split
    next hpositive => exact .deferred (if_pos ⟨rfl, hpositive⟩) hnil
    · rw [← hnil]
      exact .polled _

theorem toolEffect_callTool (id : Value) (name : String) (arguments : Value) :
    ToolEffect out state session agent id (callWait name arguments)
      (state.callTool out order session agent id name arguments).1
      (state.callTool out order session agent id name arguments).2 := by
  unfold callTool
  split
  · exact toolEffect_unchanged out
      (plain_textResult _ (daemonBridgeStatus_events order state))
  · exact toolEffect_bridgeTool out (eventless_callEmitKey out _ _)
      (BridgeRuntime.frame_callEmitKey out _ _)
  · exact toolEffect_bridgeTool out (eventless_callSendCodexMessage out _ _)
      (BridgeRuntime.frame_callSendCodexMessage out _ _)
  · exact toolEffect_bridgeTool out (callSetThreadStatus_spec out order state _ _ _).1
      (callSetThreadStatus_spec out order state _ _ _).2
  · exact toolEffect_callPublishTasks out order arguments
  · exact toolEffect_bridgeTool out (eventless_callSetDisplayContext out _ _)
      (BridgeRuntime.frame_callSetDisplayContext out _ _)
  · split
    · exact toolEffect_unchanged out (plain_toolError _)
    · exact toolEffect_bridgeTool out (eventless_callSetRgbConfig out _ _)
        (BridgeRuntime.frame_callSetRgbConfig out _ _)
  · exact toolEffect_bridgeTool out (eventless_callDeviceStatus out _)
      (BridgeRuntime.frame_callDeviceStatus out _)
  · exact toolEffect_callPollEvents out arguments
  · exact toolEffect_unchanged out (plain_toolError _)

/-- How long a `tools/call` request waits for an event. -/
def toolWait (request : Value) : Option Nat :=
  let params := (request.get? "params").getD .null
  ((params.get? "name").bind Value.asStr).bind fun name =>
    callWait name ((params.get? "arguments").getD .null)

theorem toolEffect_callToolFor (id request : Value) :
    ToolEffect out state session agent id (toolWait request)
      (state.callToolFor out order session agent id request).1
      (state.callToolFor out order session agent id request).2 := by
  unfold callToolFor
  simp only
  split
  · exact toolEffect_unchanged out (plain_toolError _)
  next name hname =>
    have hwait : toolWait request = callWait name
        ((((request.get? "params").getD .null).get? "arguments").getD .null) := by
      simp only [toolWait, hname, Option.bind_some]
    split
    · exact toolEffect_unchanged out (plain_toolError _)
    · rw [hwait]
      exact toolEffect_callTool out order id _ _

/-- How long a request waits for an event. -/
def requestWait (method : String) (request : Value) : Option Nat :=
  if method = "tools/call" then toolWait request else none

/-- A method has no result and does nothing, or does what a tool may do. -/
theorem callMethod_cases (state : DaemonState World) (session : Nat) (agent : AgentId)
    (id : Value) (method : String) (request : Value) :
    state.callMethod out order session agent id method request = (none, state) ∨
      ∃ result after, state.callMethod out order session agent id method request =
          (some result, after) ∧
        ToolEffect out state session agent id (requestWait method request) result after := by
  unfold callMethod
  split
  · exact .inr ⟨_, _, rfl, toolEffect_unchanged out ⟨rfl, rfl⟩⟩
  · exact .inr ⟨_, _, rfl, toolEffect_unchanged out ⟨rfl, rfl⟩⟩
  · exact .inr ⟨_, _, rfl, toolEffect_unchanged out ⟨rfl, rfl⟩⟩
  · exact .inr ⟨_, _, rfl, toolEffect_unchanged out ⟨rfl, rfl⟩⟩
  · exact .inr ⟨_, _, rfl, toolEffect_unchanged out ⟨rfl, rfl⟩⟩
  · exact .inr ⟨_, _, rfl, toolEffect_callToolFor out order id request⟩
  · exact .inl rfl

/-! ## Requests -/

/-- What a request may do to the daemon. -/
inductive RequestEffect (state : DaemonState World) (session : Nat) (request : Value) :
    DaemonState World → Prop
  /-- Nobody waits for a response to it. -/
  | ignored (hawaits : awaitedId request = none) :
      RequestEffect state session request state
  /-- It is answered with an error. -/
  | refused {message : Value} (hevents : eventsOf message = [])
      (hanswers : answeredId message = awaitedId request) :
      RequestEffect state session request (state.send session message)
  /-- It is answered with a result. -/
  | answered {agent : AgentId} {id result : Value} {wait : Option Nat}
      {after : DaemonState World}
      (hagent : state.sessionAgent session = some agent)
      (hawaits : awaitedId request = some id) (hresult : isNull result = false)
      (heffect : ToolEffect out state session agent id wait result after) :
      RequestEffect state session request (after.send session (Mcp.response id result))
  /-- It becomes a pending poll. -/
  | deferred {agent : AgentId} {id : Value} {method : String} {timeoutMs : Nat}
      (hagent : state.sessionAgent session = some agent)
      (hawaits : awaitedId request = some id) (hmethod : requestMethod request = some method)
      (hwait : requestWait method request = some timeoutMs)
      (hempty : (state.drainEvents session agent).1 = []) :
      RequestEffect state session request
        ((state.drainEvents session agent).2.deferPoll out session agent id timeoutMs)

theorem requestEffect_answerRequest {id request : Value} {method : String}
    (hagent : state.sessionAgent session = some agent)
    (hawaits : awaitedId request = some id) (hmethod : requestMethod request = some method) :
    RequestEffect out state session request
      (state.answerRequest out order session agent id method request) := by
  unfold answerRequest
  rcases callMethod_cases out order state session agent id method request with
    hnone | ⟨result, after, hsome, heffect⟩
  · rw [hnone]
    exact .refused rfl (hawaits.symm ▸ rfl)
  · rw [hsome]
    cases hresult : isNull result with
    | false =>
        simp only [hresult, Bool.false_eq_true, if_false]
        exact .answered hagent hawaits hresult heffect
    | true =>
        -- only the answer of a waiting poll is null
        cases heffect with
        | plain hplain => rw [hplain.isNull] at hresult; cases hresult
        | notified hplain => rw [hplain.isNull] at hresult; cases hresult
        | polled pretty => cases hresult
        | deferred hwait hempty => exact .deferred hagent hawaits hmethod hwait hempty

theorem requestEffect_handleRequest (state : DaemonState World) (session : Nat)
    (request : Value) :
    RequestEffect out state session request
      (state.handleRequest out order session request) := by
  unfold handleRequest
  cases hmethod : requestMethod request with
  | none =>
      have hawaits : awaitedId request = none := by simp [awaitedId, hmethod]
      cases request.get? "id" with
      | none => exact .ignored hawaits
      | some id => exact .refused rfl (hawaits.symm ▸ rfl)
  | some method =>
      cases hid : request.get? "id" with
      | none => exact .ignored (by simp [awaitedId, hmethod, hid])
      | some id =>
          cases hnotification : isNotification method with
          | true =>
              have hawaits : awaitedId request = none := by
                simp [awaitedId, hmethod, hnotification]
              simp only [hnotification, if_true]
              exact .ignored hawaits
          | false =>
              have hawaits : awaitedId request = some id := by
                simp [awaitedId, hmethod, hnotification, hid]
              simp only [hnotification, Bool.false_eq_true, if_false]
              cases hagent : state.sessionAgent session with
              | none => exact .refused rfl (hawaits.symm ▸ rfl)
              | some agent => exact requestEffect_answerRequest out order hagent hawaits hmethod

end DaemonState
end Daemon
end MicroEmu
