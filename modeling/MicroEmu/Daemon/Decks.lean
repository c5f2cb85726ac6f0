import MicroEmu.Bridge.Decks
import MicroEmu.Daemon.Requests
import MicroEmu.Tasks.Devices

/-!
# What the sessions do to the devices

A message of a session renders and selects like an event does.  Besides, a request publishes in
the name of its session, and it may take the cards of the automatic feed of its agent from the
board first; the end of the session leases its cards.  `set_display_context` drops the auxiliary
controllers that fail to take the context without unregistering their devices.
-/

namespace MicroEmu

/-- The operations that the messages of a session make on the board, with the agent it has
registered for: it publishes in its own name, and one that `publishes` a list takes the cards of
the automatic feed of its agent away first. -/
def Tasks.Op.IsFor (session : Nat) (agent : Option Routing.AgentId) (publishes : Bool) :
    Tasks.Op → Prop
  | .publishTasks publisher publishing _ _ => publisher = session ∧ agent = some publishing
  | .publishLegacyStatus publisher publishing _ _ => publisher = session ∧ agent = some publishing
  | .disconnectSession ended _ => ended = session
  | .clearSession cleared =>
      publishes = true ∧ agent.bind Daemon.DaemonState.autoFeedSession = some cleared
  | op => op.IsSelection

theorem Tasks.Op.IsSelection.isFor {op : Tasks.Op} (h : op.IsSelection) (session : Nat)
    (agent : Option Routing.AgentId) (publishes : Bool) : op.IsFor session agent publishes := by
  cases op with
  | publishTasks | publishLegacyStatus | disconnectSession | clearSession => exact h.elim
  | _ => exact h

theorem Tasks.Op.IsFor.keepsSlots {session : Nat} {agent : Option Routing.AgentId}
    {publishes : Bool} {op : Tasks.Op} (h : op.IsFor session agent publishes) :
    op.KeepsSlots := by
  cases op with
  | setDevice | clearDevices | setSlotOwners => exact h.elim
  | _ => trivial

namespace Bridge

open Json (Value)
open Tasks (Op TaskBoard WalkOrder)
open Relation (ReflTransGen)

namespace BridgeRuntime

variable {World : Type} (out : Outside World) (order : WalkOrder)

/-- A number of steps of the decks lies between the two bridges. -/
def Works (may : Op → Prop) (loses : Decks World → AuxController → Prop)
    (before after : BridgeRuntime World) : Prop :=
  DeckSteps out may loses before.decks after.decks

section Works

variable {out} {may : Op → Prop} {loses : Decks World → AuxController → Prop}
  {a b c : BridgeRuntime World}

theorem Works.refl (bridge : BridgeRuntime World) : Works out may loses bridge bridge :=
  ReflTransGen.refl

theorem Works.trans (hab : Works out may loses a b) (hbc : Works out may loses b c) :
    Works out may loses a c := ReflTransGen.trans hab hbc

/-- The decks are the same. -/
theorem Works.of_eq (h : b.decks = a.decks) : Works out may loses a b := by
  rw [Works, h]

theorem Serves.works (h : Serves out a b) (hmay : ∀ op, op.IsSelection → may op) :
    Works out may loses a b := DeckSteps.mono h hmay fun _ _ hno => hno.elim

/-- An operation on the board. -/
theorem Works.board (bridge : BridgeRuntime World) (order : WalkOrder) (op : Op) (h : may op)
    {board : TaskBoard} (hboard : bridge.taskBoard.apply order op = board) :
    Works out may loses bridge { bridge with taskBoard := board } := by
  subst hboard
  exact .single (.board bridge.decks order op h)

end Works

/-! ## Tools -/

theorem serves_sendAll (messages : List Value) (bridge : BridgeRuntime World) :
    Serves out bridge (sendAll out messages bridge).2 := by
  induction messages generalizing bridge with
  | nil => exact .refl bridge
  | cons message messages ih =>
      have hwritten := serves_sendCodex out bridge message
      simp only [sendAll]
      split
      · exact hwritten
      · exact hwritten.trans (ih _)

theorem serves_callEmitKey (bridge : BridgeRuntime World) (arguments : Value) :
    Serves out bridge (bridge.callEmitKey out arguments).2 := by
  unfold callEmitKey
  split
  · exact .refl bridge
  · split
    · exact .refl bridge
    · exact serves_sendAll out _ bridge

theorem serves_sendToolMessage (bridge : BridgeRuntime World) (message : Value) :
    Serves out bridge (bridge.sendToolMessage out message).2 := by
  unfold sendToolMessage
  split
  · exact .refl bridge
  · exact serves_sendCodex out bridge message

theorem serves_callSendCodexMessage (bridge : BridgeRuntime World) (arguments : Value) :
    Serves out bridge (bridge.callSendCodexMessage out arguments).2 := by
  unfold callSendCodexMessage
  split
  · exact .refl bridge
  · split
    · exact serves_sendToolMessage out bridge _
    · exact .refl bridge

theorem serves_callSetRgbConfig (bridge : BridgeRuntime World) (arguments : Value) :
    Serves out bridge (bridge.callSetRgbConfig out arguments).2 := by
  unfold callSetRgbConfig
  split
  · exact .refl bridge
  · split
    · exact serves_sendToolMessage out bridge _
    · exact .refl bridge

theorem serves_callDeviceStatus (bridge : BridgeRuntime World) :
    Serves out bridge (bridge.callDeviceStatus out).2 := by
  have hnumbered : Serves out bridge
      { bridge with sequence := (bridge.sequence + 1) % 2 ^ 16 } := .of_eq rfl
  exact hnumbered.trans (serves_sendToolMessage out _ _)

/-! ## The display context tool -/

theorem serves_pushContextPrimary (context : DisplayContext) (bridge : BridgeRuntime World) :
    Serves out bridge (bridge.pushContextPrimary out context).2 := by
  unfold pushContextPrimary
  split
  · exact .refl bridge
  next device hdevice =>
    have hshown : Serves out bridge (bridge.call (out.applyDisplayContext device context)).2 :=
      .call (.single (.applyDisplayContext _ _ _))
    simp only
    split
    · exact hshown.trans (serves_detachController out _)
    · exact hshown

/-- The auxiliary controllers that fail to take a context. -/
def refusingAux (context : DisplayContext) : List AuxController → World → List AuxController
  | [], _ => []
  | aux :: rest, world =>
      let shown := out.applyDisplayContext aux.device context world
      match shown.1 with
      | .error _ => aux :: refusingAux context rest (out.shutdown aux.device shown.2).2
      | .ok () => refusingAux context rest shown.2

/-- The auxiliary controllers that fail to take the context of a call. -/
def contextRefusals (bridge : BridgeRuntime World) (arguments : Value) : List AuxController :=
  match DisplayContext.fromValue arguments with
  | .error _ => []
  | .ok parsed =>
      let context := bridge.labelUsage parsed
      let stored := { bridge with
        lastDisplayContext := some context
        hasExplicitDisplayContext := true }
      let rendered := stored.displayContextForController context stored.taskDeviceId
      refusingAux out rendered bridge.auxControllers
        (stored.pushContextPrimary out rendered).2.world

theorem decks_detachController (bridge : BridgeRuntime World) :
    (bridge.detachController out).auxControllers = bridge.auxControllers ∧
      (bridge.detachController out).taskDeviceId = bridge.taskDeviceId ∧
      (bridge.detachController out).taskBoard = bridge.taskBoard := by
  unfold detachController scheduleControllerRetry
  cases bridge.controller with
  | none =>
      simp only
      split <;> exact ⟨rfl, rfl, rfl⟩
  | some device =>
      simp only
      split <;> exact ⟨rfl, rfl, rfl⟩

theorem decks_pushContextPrimary (context : DisplayContext) (bridge : BridgeRuntime World) :
    (bridge.pushContextPrimary out context).2.auxControllers = bridge.auxControllers ∧
      (bridge.pushContextPrimary out context).2.taskDeviceId = bridge.taskDeviceId ∧
      (bridge.pushContextPrimary out context).2.taskBoard = bridge.taskBoard := by
  unfold pushContextPrimary
  split
  · exact ⟨rfl, rfl, rfl⟩
  next device hdevice =>
    simp only
    split
    · exact decks_detachController out (bridge.call (out.applyDisplayContext device context)).2
    · exact ⟨rfl, rfl, rfl⟩

/-- A loop over the list keeps or loses one controller after the other. -/
theorem steps_pushContextAux {may : Op → Prop} {loses : Decks World → AuxController → Prop}
    (context : DisplayContext) (auxes kept : List AuxController) (bridge : BridgeRuntime World)
    (hloses : ∀ aux ∈ refusingAux out context auxes bridge.world, ∀ decks : Decks World,
      decks.taskBoard = bridge.taskBoard → decks.taskDeviceId = bridge.taskDeviceId →
        loses decks aux) :
    DeckSteps out may loses (bridge.decksWith (kept ++ auxes))
      ((pushContextAux out context auxes bridge).2.decksWith
        (kept ++ (pushContextAux out context auxes bridge).1)) := by
  induction auxes generalizing kept bridge with
  | nil => exact .refl
  | cons aux auxes ih =>
      have hshown : DeckSteps out may loses (bridge.decksWith (kept ++ aux :: auxes))
          ((bridge.call (out.applyDisplayContext aux.device context)).2.decksWith
            (kept ++ aux :: auxes)) :=
        .of_world (bridge.decksWith (kept ++ aux :: auxes))
          (.single (.applyDisplayContext _ _ _))
      simp only [pushContextAux, call]
      simp only [refusingAux] at hloses
      refine ReflTransGen.trans hshown ?_
      simp only [call]
      cases hanswer : (out.applyDisplayContext aux.device context bridge.world).1 with
      | error error =>
          rw [hanswer] at hloses
          simp only at hloses ⊢
          have hclosed := ih kept (tell { bridge with
              world := (out.applyDisplayContext aux.device context bridge.world).2 }
                (out.shutdown aux.device))
            fun later hlater => hloses later (List.mem_cons_of_mem _ hlater)
          refine ReflTransGen.trans (DeckSteps.of_world _
            (.single (.shutdown aux.device _))) (.head ?_ hclosed)
          exact .lose kept aux auxes rfl (hloses aux List.mem_cons_self _ rfl rfl)
      | ok done =>
          rw [hanswer] at hloses
          simp only at hloses ⊢
          have hkept := ih (kept ++ [aux]) { bridge with
            world := (out.applyDisplayContext aux.device context bridge.world).2 } hloses
          rwa [List.append_assoc, List.append_assoc] at hkept

/-- The whole loop, from a bridge that has just served its primary controller. -/
theorem works_pushContextAux {may : Op → Prop} {loses : Decks World → AuxController → Prop}
    (context : DisplayContext) (bridge : BridgeRuntime World)
    (hloses : ∀ aux ∈ refusingAux out context bridge.auxControllers bridge.world,
      ∀ decks : Decks World, decks.taskBoard = bridge.taskBoard →
        decks.taskDeviceId = bridge.taskDeviceId → loses decks aux) :
    Works out may loses bridge
      { (pushContextAux out context bridge.auxControllers
          { bridge with auxControllers := [] }).2 with
        auxControllers := (pushContextAux out context bridge.auxControllers
          { bridge with auxControllers := [] }).1 } :=
  steps_pushContextAux out context bridge.auxControllers [] { bridge with auxControllers := [] }
    hloses

theorem works_callSetDisplayContext {may : Op → Prop}
    {loses : Decks World → AuxController → Prop} (hmay : ∀ op, op.IsSelection → may op)
    (bridge : BridgeRuntime World) (arguments : Value)
    (hloses : ∀ aux ∈ bridge.contextRefusals out arguments, ∀ decks : Decks World,
      decks.taskBoard = bridge.taskBoard → decks.taskDeviceId = bridge.taskDeviceId →
        loses decks aux) :
    Works out may loses bridge (bridge.callSetDisplayContext out arguments).2 := by
  unfold contextRefusals at hloses
  unfold callSetDisplayContext
  cases hparsed : DisplayContext.fromValue arguments with
  | error error => exact .refl bridge
  | ok parsed =>
      rw [hparsed] at hloses
      obtain ⟨stored, hstored⟩ : ∃ stored, stored = ({ bridge with
          lastDisplayContext := some (bridge.labelUsage parsed)
          hasExplicitDisplayContext := true } : BridgeRuntime World) := ⟨_, rfl⟩
      obtain ⟨rendered, hrendered⟩ : ∃ rendered, rendered =
          stored.displayContextForController (bridge.labelUsage parsed) stored.taskDeviceId :=
        ⟨_, rfl⟩
      have hkept : Works out may loses bridge stored := .of_eq (by rw [hstored]; rfl)
      have hprimary : Works out may loses stored (stored.pushContextPrimary out rendered).2 :=
        (serves_pushContextPrimary out rendered stored).works hmay
      obtain ⟨haux, hdevice, hboard⟩ := decks_pushContextPrimary out rendered stored
      have hpushed : Works out may loses (stored.pushContextPrimary out rendered).2 _ :=
        works_pushContextAux out rendered _ fun aux hrefuses decks hdecks hid => by
          rw [hdevice, hstored] at hid
          rw [hboard, hstored] at hdecks
          rw [haux] at hrefuses
          subst hrendered hstored
          exact hloses aux hrefuses decks hdecks hid
      have hall := hkept.trans (hprimary.trans hpushed)
      subst hrendered hstored
      dsimp only
      split
      · exact hall
      · exact hall

end BridgeRuntime
end Bridge

namespace Daemon

open Json (Value)
open Routing (AgentId)
open Bridge (AuxController BridgeRuntime Decks Outside)
open Bridge.BridgeRuntime (Works)
open Tasks (Op WalkOrder)

namespace DaemonState

variable {World : Type} (out : Outside World) (order : WalkOrder)

/-! ## Requests -/

/-- The request calls `publish_tasks`. -/
def callsPublishTasks (request : Value) : Bool :=
  requestMethod request == some "tools/call" &&
    (((request.get? "params").getD .null).get? "name").bind Value.asStr == some "publish_tasks"

/-- The arguments with which a request calls `set_display_context`. -/
def displayContextCall (state : DaemonState World) (session : Nat) (request : Value) :
    Option Value :=
  match requestMethod request, request.get? "id", state.sessionAgent session with
  | some "tools/call", some _, some agent =>
      let params := (request.get? "params").getD .null
      if (params.get? "name").bind Value.asStr = some "set_display_context" ∧
          Mcp.toolAvailable "set_display_context" (some agent) then
        some ((params.get? "arguments").getD .null)
      else
        none
  | _, _, _ => none

section

variable {loses : Decks World → AuxController → Prop} {session : Nat} {agent : Option AgentId}
  {publishes : Bool}

/-- What the bridge does for a message of the session. -/
abbrev WorksFor (loses : Decks World → AuxController → Prop) (session : Nat)
    (agent : Option AgentId) (publishes : Bool) (before after : BridgeRuntime World) : Prop :=
  Works out (Op.IsFor session agent publishes) loses before after

variable {out} in
theorem worksFor_of_serves {before after : BridgeRuntime World}
    (h : BridgeRuntime.Serves out before after) :
    WorksFor out loses session agent publishes before after :=
  h.works fun _ hop => hop.isFor session agent publishes

variable {out} in
theorem worksFor_call {α : Type} {bridge : BridgeRuntime World} {ask : Bridge.Call World α}
    (h : Bridge.WorldSteps out bridge.world (ask bridge.world).2) :
    WorksFor out loses session agent publishes bridge (bridge.call ask).2 :=
  worksFor_of_serves (.call h)

variable {out} in
theorem worksFor_board (bridge : BridgeRuntime World) (order : WalkOrder) (op : Op)
    (h : op.IsFor session agent publishes) : WorksFor out loses session agent publishes bridge
      { bridge with taskBoard := bridge.taskBoard.apply order op } := .board bridge order op h rfl

theorem worksFor_handOver (state : DaemonState World) (agent : AgentId) :
    WorksFor out loses session (some agent) true state.bridge
      (state.handOver order session agent) := by
  unfold handOver
  cases hfeed : (autoFeedSession agent).filter (· != session) with
  | none => exact .refl _
  | some feed =>
      exact worksFor_board state.bridge order (.clearSession feed)
        ⟨rfl, (Option.filter_eq_some_iff.mp hfeed).1⟩

theorem bridge_send (state : DaemonState World) (id : Nat) (message : Value) :
    (state.send id message).bridge = state.bridge := by
  unfold send
  split
  · rfl
  · rfl

theorem bridge_pushBack (state : DaemonState World) (id : Nat) (event : Value) :
    (state.pushBack id event).bridge = state.bridge := by
  unfold pushBack
  split
  · rfl
  · rfl

theorem bridge_pushSessionEvent (state : DaemonState World) (id : Nat) (event : Value) :
    (state.pushSessionEvent id event).bridge = state.bridge := bridge_pushBack _ id event

theorem worksFor_callPublishTasks (state : DaemonState World) (agent : AgentId)
    (arguments : Value) : WorksFor out loses session (some agent) true state.bridge
      (state.callPublishTasks out order session agent arguments).2.bridge := by
  have hasked : WorksFor out loses session (some agent) true state.bridge
      ((state.handOver order session agent).call out.systemTime).2 :=
    (worksFor_handOver out order state agent).trans (worksFor_call (.single (.systemTime _)))
  unfold callPublishTasks
  simp only
  generalize ((state.handOver order session agent).call out.systemTime) = asked at hasked ⊢
  have hpublished := hasked.trans (worksFor_board asked.2 order
    (.publishTasks session agent arguments asked.1) ⟨rfl, rfl⟩)
  split
  · exact hpublished
  · rw [bridge_pushSessionEvent]
    have hexplicit : WorksFor out loses session (some agent) true state.bridge { asked.2 with
        taskBoard := (asked.2.taskBoard.publishTasks order session agent arguments asked.1).2
        hasExplicitTaskState := true } := hpublished.trans (.of_eq rfl)
    have hrefreshed := hexplicit.trans
      (worksFor_of_serves (BridgeRuntime.serves_refresh out order _))
    exact hrefreshed.trans (worksFor_call (.single (.systemTime _)))

theorem worksFor_publishStatus (state : DaemonState World) (agent : AgentId) (status : Value) :
    WorksFor out loses session (some agent) publishes state.bridge
      (state.publishStatus out order session agent status).2 := by
  have hasked : WorksFor out loses session (some agent) publishes state.bridge
      (state.bridge.call out.systemTime).2 :=
    worksFor_call (.single (.systemTime _))
  unfold publishStatus
  simp only
  generalize state.bridge.call out.systemTime = asked at hasked ⊢
  have hpublished := hasked.trans (worksFor_board asked.2 order
    (.publishLegacyStatus session agent status asked.1) ⟨rfl, rfl⟩)
  split
  · exact hpublished
  · have hexplicit : WorksFor out loses session (some agent) publishes state.bridge { asked.2 with
        taskBoard :=
          (asked.2.taskBoard.publishLegacyStatus order session agent status asked.1).2
        hasExplicitTaskState := true } := hpublished.trans (.of_eq rfl)
    exact hexplicit.trans (worksFor_of_serves (BridgeRuntime.serves_refresh out order _))

theorem serves_forwardStatus (bridge : BridgeRuntime World) (agent : AgentId) (status : Value) :
    BridgeRuntime.Serves out bridge (forwardStatus out bridge agent status) := by
  unfold forwardStatus
  split
  · exact BridgeRuntime.serves_sendCodex out bridge _
  · exact .refl bridge

theorem serves_fuseStatus (state : DaemonState World) (agent : AgentId) (status : Value) :
    BridgeRuntime.Serves out state.bridge (state.fuseStatus out agent status).2 := by
  unfold fuseStatus
  simp only
  split
  · exact .of_eq rfl
  next fused hfused =>
    have hkept : BridgeRuntime.Serves out state.bridge { state.bridge with
        fusedLcd :=
          (state.bridge.fusedLcd.mergeFromAgent agent status state.bridge.partition).2
        hasExplicitTaskState := true } := .of_eq rfl
    split
    · exact hkept.trans (serves_forwardStatus out _ agent status)
    next device hdevice =>
      have hshown := hkept.trans (.call (.single (.applyThreadStatus device (.array fused) _)))
      split
      · exact hshown.trans (BridgeRuntime.serves_detachController out _)
      · exact hshown.trans (serves_forwardStatus out _ agent status)

theorem worksFor_callSetThreadStatus (state : DaemonState World) (agent : AgentId)
    (arguments : Value) : WorksFor out loses session (some agent) publishes state.bridge
      (state.callSetThreadStatus out order session agent arguments).2 := by
  unfold callSetThreadStatus
  split
  · exact .refl _
  · split
    · exact .refl _
    · split
      · exact worksFor_publishStatus out order state agent _
      · exact worksFor_of_serves (serves_fuseStatus out state agent _)

theorem worksFor_callPollEvents (state : DaemonState World) (agent : AgentId)
    (id arguments : Value) : WorksFor out loses session (some agent) publishes state.bridge
      (state.callPollEvents out session agent id arguments).2.bridge := by
  have hdrained : WorksFor out loses session (some agent) publishes state.bridge
      (state.drainEvents session agent).2.bridge := .of_eq rfl
  unfold callPollEvents
  simp only
  split
  · exact hdrained
  · split
    · exact hdrained.trans (worksFor_call (.single (.instant _)))
    · exact hdrained

/-- No auxiliary controller that refuses the context of the request has to stay. -/
def RefusalsMayGo (loses : Decks World → AuxController → Prop) (session : Nat)
    (state : DaemonState World) (request : Value) : Prop :=
  ∀ arguments, state.displayContextCall session request = some arguments →
    ∀ aux ∈ state.bridge.contextRefusals out arguments, ∀ decks : Decks World,
      decks.taskBoard = state.bridge.taskBoard →
        decks.taskDeviceId = state.bridge.taskDeviceId → loses decks aux

theorem worksFor_callTool (state : DaemonState World) (agent : AgentId) (id : Value)
    (name : String) (arguments : Value)
    (hloses : name = "set_display_context" →
      ∀ aux ∈ state.bridge.contextRefusals out arguments, ∀ decks : Decks World,
        decks.taskBoard = state.bridge.taskBoard →
          decks.taskDeviceId = state.bridge.taskDeviceId → loses decks aux)
    (hpublishes : name = "publish_tasks" → publishes = true) :
    WorksFor out loses session (some agent) publishes state.bridge
      (state.callTool out order session agent id name arguments).2.bridge := by
  unfold callTool
  split
  · exact .refl _
  · exact worksFor_of_serves (BridgeRuntime.serves_callEmitKey out _ arguments)
  · exact worksFor_of_serves (BridgeRuntime.serves_callSendCodexMessage out _ arguments)
  · exact worksFor_callSetThreadStatus out order state agent arguments
  · exact hpublishes rfl ▸ worksFor_callPublishTasks out order state agent arguments
  · exact BridgeRuntime.works_callSetDisplayContext out
      (fun _ hop => hop.isFor session _ _) _ arguments (hloses rfl)
  · split
    · exact .refl _
    · exact worksFor_of_serves (BridgeRuntime.serves_callSetRgbConfig out _ arguments)
  · exact worksFor_of_serves (BridgeRuntime.serves_callDeviceStatus out _)
  · exact worksFor_callPollEvents out state agent id arguments
  · exact .refl _

theorem worksFor_handleRequest (state : DaemonState World) (request : Value)
    (hloses : RefusalsMayGo out loses session state request) :
    WorksFor out loses session (state.sessionAgent session) (callsPublishTasks request)
      state.bridge (state.handleRequest out order session request).bridge := by
  unfold handleRequest
  split
  · exact .refl _
  · rw [bridge_send]
    exact .refl _
  · exact .refl _
  next method id hmethod hid =>
    split
    · exact .refl _
    · split
      · rw [bridge_send]
        exact .refl _
      next agent hagent =>
        rw [hagent]
        have hcalled : WorksFor out loses session (some agent) (callsPublishTasks request)
            state.bridge (state.callMethod out order session agent id method request).2.bridge := by
          unfold callMethod
          split
          · exact .refl _
          · exact .refl _
          · exact .refl _
          · exact .refl _
          · exact .refl _
          · unfold callToolFor
            simp only
            split
            · exact .refl _
            next name hname =>
              split
              · exact .refl _
              next havailable =>
                refine worksFor_callTool out order state agent id name _ (fun hcontext => ?_)
                  fun hpublish => ?_
                · subst hcontext
                  refine hloses _ ?_
                  unfold displayContextCall
                  rw [hmethod, hid, hagent]
                  simp only [hname, true_and]
                  rw [if_pos (by simpa using havailable)]
                · subst hpublish
                  unfold callsPublishTasks
                  rw [hmethod, hname]
                  rfl
          · exact .refl _
        unfold answerRequest
        simp only
        split
        · rw [bridge_send]
          exact hcalled
        · split
          · exact hcalled
          · rw [bridge_send]
            exact hcalled

/-! ## The start and the end of a session -/

theorem bridge_handleHello (state : DaemonState World) (session : Nat) (info : HelloInfo) :
    (state.handleHello session info).bridge = state.bridge := by
  unfold handleHello
  split
  · rfl
  · rfl

theorem serves_hello (state : DaemonState World) (session : Nat) (info : HelloInfo) :
    BridgeRuntime.Serves out state.bridge (state.hello out order session info).bridge := by
  have hrefreshed (agent : Codex.UsageAgent) (bridge : BridgeRuntime World) :
      BridgeRuntime.Serves out bridge
        (((bridge.requestUsageRefresh out agent).autoDeriveDisplayContext out order).refresh out
          order) :=
    (BridgeRuntime.serves_requestUsageRefresh out bridge agent).trans
      ((BridgeRuntime.serves_autoDeriveDisplayContext out order _).trans
        (BridgeRuntime.serves_refresh out order _))
  have hbridge := bridge_handleHello state session info
  unfold hello
  cases info.agent with
  | codex => exact hbridge ▸ hrefreshed .codex (state.handleHello session info).bridge
  | zCode => exact hbridge ▸ hrefreshed .zCode (state.handleHello session info).bridge
  | hermes => exact .of_eq (congrArg BridgeRuntime.decks hbridge)
  | claude => exact .of_eq (congrArg BridgeRuntime.decks hbridge)

theorem worksFor_endSession (state : DaemonState World) :
    WorksFor out loses session agent publishes state.bridge
      (state.endSession out order session).bridge := by
  have hasked : WorksFor out loses session agent publishes state.bridge
      (state.bridge.call out.systemTime).2 :=
    worksFor_call (.single (.systemTime _))
  have hleased := hasked.trans (worksFor_board _ order
    (.disconnectSession session (state.bridge.call out.systemTime).1) rfl)
  exact hleased.trans (worksFor_of_serves (BridgeRuntime.serves_refresh out order _))

end

end DaemonState
end Daemon
end MicroEmu
