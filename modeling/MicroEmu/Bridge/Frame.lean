import MicroEmu.Bridge.Tools

/-!
# What routing an event leaves alone

Serving the events of a controller never changes the task mode, the task device
or the partition.  Only a Micro position touches the routing queues, and all it
does to them is push.
-/

namespace MicroEmu
namespace Bridge

open Json (Value)
open Routing (AgentId BufferedEvent EventRouting)
open Codex (CatalogAction PhysicalEvent UsageAgent)
open Tasks (TaskBoard TaskCard WalkOrder)

namespace BridgeRuntime

variable {World : Type} (out : Outside World) (order : WalkOrder)

/-- The task mode, the task device with its slot count, and the partition. -/
def setting (bridge : BridgeRuntime World) : Bool × String × Nat × Routing.Partition :=
  (bridge.taskMode, bridge.taskDeviceId, bridge.taskSlotCount, bridge.partition)

/-- What every route but that of a Micro position leaves alone. -/
def frame (bridge : BridgeRuntime World) :
    (Bool × String × Nat × Routing.Partition) × EventRouting :=
  (bridge.setting, bridge.routing)

theorem setting_of_frame {a b : BridgeRuntime World} (h : a.frame = b.frame) :
    a.setting = b.setting := congrArg Prod.fst h

theorem routing_of_frame {a b : BridgeRuntime World} (h : a.frame = b.frame) :
    a.routing = b.routing := congrArg Prod.snd h

@[simp] theorem frame_call {α : Type} (bridge : BridgeRuntime World)
    (ask : Call World α) : (bridge.call ask).2.frame = bridge.frame := rfl

@[simp] theorem frame_tell {α : Type} (bridge : BridgeRuntime World)
    (ask : Call World α) : (bridge.tell ask).frame = bridge.frame := rfl

@[simp] theorem frame_writeReports (reports : List (List UInt8))
    (bridge : BridgeRuntime World) :
    (writeReports out reports bridge).2.frame = bridge.frame := by
  induction reports generalizing bridge with
  | nil => rfl
  | cons report reports ih =>
      simp only [writeReports]
      split
      · rfl
      · exact ih _

@[simp] theorem frame_sendCodex (bridge : BridgeRuntime World) (message : Value) :
    (bridge.sendCodex out message).2.frame = bridge.frame := by
  unfold sendCodex
  split
  · split
    · rfl
    · simp only
      split
      · exact frame_writeReports out _ bridge
      · exact frame_writeReports out _ bridge
  · rfl

@[simp] theorem frame_scheduleControllerRetry (bridge : BridgeRuntime World) :
    (bridge.scheduleControllerRetry out).frame = bridge.frame := by
  unfold scheduleControllerRetry
  split <;> rfl

@[simp] theorem frame_detachController (bridge : BridgeRuntime World) :
    (bridge.detachController out).frame = bridge.frame := by
  unfold detachController
  split
  · exact frame_scheduleControllerRetry out _
  · exact frame_scheduleControllerRetry out _

@[simp] theorem frame_autoSelect (bridge : BridgeRuntime World) :
    (bridge.autoSelect out order).frame = bridge.frame := by
  simp only [autoSelect]
  split <;> rfl

@[simp] theorem frame_refreshAux (auxes : List AuxController)
    (bridge : BridgeRuntime World) :
    (refreshAux out order auxes bridge).2.frame = bridge.frame := by
  induction auxes generalizing bridge with
  | nil => rfl
  | cons aux auxes ih =>
      simp only [refreshAux]
      split
      · exact ih _
      · exact ih _

@[simp] theorem frame_renderPrimary (bridge : BridgeRuntime World) :
    (bridge.renderPrimary out order).2.frame = bridge.frame := by
  unfold renderPrimary
  split <;> rfl

@[simp] theorem frame_refresh (bridge : BridgeRuntime World) :
    (bridge.refresh out order).frame = bridge.frame := by
  unfold refresh refreshTaskBoard
  split
  · rfl
  · simp only
    split
    · simp
    · refine (frame_refreshAux out order _ _).trans ?_
      exact (frame_renderPrimary out order _).trans (frame_autoSelect out order bridge)

@[simp] theorem frame_sendLegacyKey (bridge : BridgeRuntime World) (key : String)
    (pressed : Bool) : (bridge.sendLegacyKey out key pressed).frame = bridge.frame := by
  unfold sendLegacyKey
  split
  · split
    · rfl
    · exact frame_sendCodex out bridge _
  · rfl

@[simp] theorem frame_routeLegacyKey (bridge : BridgeRuntime World) (task : TaskCard)
    (pressed : Bool) (nowMs : Nat) :
    (bridge.routeLegacyKey out task pressed nowMs).frame = bridge.frame := by
  unfold routeLegacyKey
  split
  · rfl
  · simp only
    split
    · refine (frame_sendLegacyKey out _ _ _).trans ?_
      split <;> rfl
    · split <;> rfl

@[simp] theorem frame_selectPressed (bridge : BridgeRuntime World) (deviceId : String)
    (index : Nat) (taskId : Option String) (task : TaskCard) (nowMs : Nat) :
    (bridge.selectPressed order deviceId index taskId task nowMs).frame =
      bridge.frame := by
  unfold selectPressed
  cases taskId <;> (simp only; split <;> rfl)

@[simp] theorem frame_driveDesktop (bridge : BridgeRuntime World) (task : TaskCard) :
    (bridge.driveDesktop out task).frame = bridge.frame := by
  unfold driveDesktop
  split <;> (try split) <;> rfl

@[simp] theorem frame_routeTaskButton (bridge : BridgeRuntime World) (deviceId : String)
    (slotCount index : Nat) (pressed : Bool) (taskId : Option String) (nowMs : Nat) :
    (bridge.routeTaskButton out order deviceId slotCount index pressed taskId
      nowMs).2.frame = bridge.frame := by
  unfold routeTaskButton
  split
  · split
    · rfl
    · refine (frame_routeLegacyKey out _ _ _ _).trans ?_
      split <;> simp
  · rfl

@[simp] theorem frame_routeTaskAction (bridge : BridgeRuntime World) (deviceId : String)
    (slotCount index : Nat) (gesture : String) (taskId : Option String) (nowMs : Nat) :
    (bridge.routeTaskAction order deviceId slotCount index gesture taskId nowMs).2.frame =
      bridge.frame := by
  unfold routeTaskAction
  repeat' first | rfl | split

@[simp] theorem frame_routeTaskToggle (bridge : BridgeRuntime World) (deviceId : String)
    (slotCount index : Nat) (taskId : Option String) (nowMs : Nat) :
    (bridge.routeTaskToggle out order deviceId slotCount index taskId nowMs).2.frame =
      bridge.frame := by
  unfold routeTaskToggle
  split
  · split
    · rfl
    · simp only
      split
      · rfl
      · simp [clickTask]
  · rfl

@[simp] theorem frame_routeDesktopDictation (bridge : BridgeRuntime World)
    (pressed : Bool) :
    (bridge.routeDesktopDictation out pressed).2.frame = bridge.frame := by
  simp only [routeDesktopDictation]
  split <;> rfl

@[simp] theorem frame_routeCatalogTaskNavigation (bridge : BridgeRuntime World)
    (deviceId : String) (action : CatalogAction) (nowMs : Nat) :
    (bridge.routeCatalogTaskNavigation order deviceId action nowMs).frame =
      bridge.frame := by
  unfold routeCatalogTaskNavigation
  split
  · rfl
  · split
    · rfl
    · simp only
      split <;> rfl

@[simp] theorem frame_routeCatalogAction (bridge : BridgeRuntime World)
    (deviceId : String) (action : CatalogAction) (nowMs : Nat) :
    (bridge.routeCatalogAction out order deviceId action nowMs).frame =
      bridge.frame := by
  unfold routeCatalogAction
  split
  · exact frame_routeCatalogTaskNavigation order bridge deviceId action nowMs
  · simp only
    split
    · rfl
    · split <;> rfl

@[simp] theorem frame_requestUsageRefresh (bridge : BridgeRuntime World)
    (agent : UsageAgent) :
    (bridge.requestUsageRefresh out agent).frame = bridge.frame := by
  simp only [requestUsageRefresh]
  split <;> rfl

@[simp] theorem frame_autoDeriveDisplayContext (bridge : BridgeRuntime World) :
    (bridge.autoDeriveDisplayContext out order).frame = bridge.frame := by
  unfold autoDeriveDisplayContext
  split <;> rfl

@[simp] theorem frame_patchDisplayContextUsage (bridge : BridgeRuntime World) :
    bridge.patchDisplayContextUsage.frame = bridge.frame := by
  unfold patchDisplayContextUsage
  split <;> rfl

@[simp] theorem frame_routeUsageSelect (bridge : BridgeRuntime World)
    (agent : UsageAgent) :
    (bridge.routeUsageSelect out order agent).frame = bridge.frame := by
  simp only [routeUsageSelect, frame_refresh, frame_patchDisplayContextUsage,
    frame_autoDeriveDisplayContext]
  split
  · exact frame_requestUsageRefresh out _ agent
  · rfl

@[simp] theorem frame_routeModelCycle (bridge : BridgeRuntime World) :
    (bridge.routeModelCycle out order).frame = bridge.frame := by
  unfold routeModelCycle
  split
  · rfl
  · simp only
    split
    · rfl
    · exact frame_refresh out order _

@[simp] theorem frame_sendRadial (bridge : BridgeRuntime World) (event : PhysicalEvent) :
    (bridge.sendRadial out event).2.frame = bridge.frame := by
  simp only [sendRadial]
  split
  · rfl
  · split
    · exact frame_sendCodex out _ _
    · rfl

/-! ## Tools -/

@[simp] theorem frame_sendAll (messages : List Value) (bridge : BridgeRuntime World) :
    (sendAll out messages bridge).2.frame = bridge.frame := by
  induction messages generalizing bridge with
  | nil => rfl
  | cons message messages ih =>
      simp only [sendAll]
      split
      · exact frame_sendCodex out bridge message
      · exact (ih _).trans (frame_sendCodex out bridge message)

@[simp] theorem frame_callEmitKey (bridge : BridgeRuntime World) (arguments : Value) :
    (bridge.callEmitKey out arguments).2.frame = bridge.frame := by
  unfold callEmitKey
  split
  · rfl
  · split
    · rfl
    · exact frame_sendAll out _ bridge

@[simp] theorem frame_sendToolMessage (bridge : BridgeRuntime World) (message : Value) :
    (bridge.sendToolMessage out message).2.frame = bridge.frame := by
  unfold sendToolMessage
  split
  · rfl
  · exact frame_sendCodex out bridge message

@[simp] theorem frame_callSendCodexMessage (bridge : BridgeRuntime World)
    (arguments : Value) :
    (bridge.callSendCodexMessage out arguments).2.frame = bridge.frame := by
  unfold callSendCodexMessage
  split
  · rfl
  · split
    · exact frame_sendToolMessage out bridge _
    · rfl

@[simp] theorem frame_callSetRgbConfig (bridge : BridgeRuntime World) (arguments : Value) :
    (bridge.callSetRgbConfig out arguments).2.frame = bridge.frame := by
  unfold callSetRgbConfig
  split
  · rfl
  · split
    · exact frame_sendToolMessage out bridge _
    · rfl

@[simp] theorem frame_callDeviceStatus (bridge : BridgeRuntime World) :
    (bridge.callDeviceStatus out).2.frame = bridge.frame :=
  (frame_sendToolMessage out _ _).trans rfl

@[simp] theorem frame_pushContextAux (context : DisplayContext) (auxes : List AuxController)
    (bridge : BridgeRuntime World) :
    (pushContextAux out context auxes bridge).2.frame = bridge.frame := by
  induction auxes generalizing bridge with
  | nil => rfl
  | cons aux auxes ih =>
      simp only [pushContextAux]
      split
      · exact ih _
      · exact ih _

@[simp] theorem frame_pushContextPrimary (bridge : BridgeRuntime World)
    (context : DisplayContext) :
    (bridge.pushContextPrimary out context).2.frame = bridge.frame := by
  unfold pushContextPrimary
  split
  · rfl
  · simp only
    split
    · exact frame_detachController out _
    · rfl

@[simp] theorem frame_callSetDisplayContext (bridge : BridgeRuntime World)
    (arguments : Value) :
    (bridge.callSetDisplayContext out arguments).2.frame = bridge.frame := by
  unfold callSetDisplayContext
  split
  · rfl
  · simp only
    have hpushed (stored : BridgeRuntime World) (context : DisplayContext)
        (hstored : stored.frame = bridge.frame) :
        (pushContextAux out context (stored.pushContextPrimary out context).2.auxControllers
          { (stored.pushContextPrimary out context).2 with auxControllers := [] }).2.frame =
          bridge.frame :=
      (frame_pushContextAux out context _ _).trans
        ((frame_pushContextPrimary out stored context).trans hstored)
    split
    · exact hpushed _ _ rfl
    · exact hpushed _ _ rfl

/-! ## Positions and the loops -/

/-- The queues after a list of pushes. -/
def pushAll (routing : EventRouting) (pushed : List (AgentId × BufferedEvent)) :
    EventRouting :=
  pushed.foldl (fun routing push => routing.push push.1 push.2) routing

/-- The routing queues of `b` are those of `a` after some pushes. -/
def QueuesGrow (a b : BridgeRuntime World) : Prop :=
  ∃ pushed, b.routing = pushAll a.routing pushed

theorem QueuesGrow.of_eq {a b : BridgeRuntime World} (h : b.routing = a.routing) :
    QueuesGrow a b := ⟨[], h⟩

theorem QueuesGrow.trans {a b c : BridgeRuntime World} (hab : QueuesGrow a b)
    (hbc : QueuesGrow b c) : QueuesGrow a c := by
  obtain ⟨pushed, hpushed⟩ := hab
  obtain ⟨more, hmore⟩ := hbc
  exact ⟨pushed ++ more, by rw [hmore, hpushed, pushAll, pushAll, pushAll, List.foldl_append]⟩

/-- The queues only grow, and the setting is the same. -/
def PushesOnly (a b : BridgeRuntime World) : Prop :=
  b.setting = a.setting ∧ QueuesGrow a b

theorem PushesOnly.of_frame {a b : BridgeRuntime World} (h : b.frame = a.frame) :
    PushesOnly a b := ⟨setting_of_frame h, .of_eq (routing_of_frame h)⟩

theorem PushesOnly.trans {a b c : BridgeRuntime World} (hab : PushesOnly a b)
    (hbc : PushesOnly b c) : PushesOnly a c :=
  ⟨hbc.1.trans hab.1, hab.2.trans hbc.2⟩

theorem pushesOnly_bufferButton (bridge : BridgeRuntime World) (index : Nat)
    (pressed : Bool) (nowMs : Nat) :
    PushesOnly bridge (bridge.bufferButton index pressed nowMs) := by
  refine ⟨rfl, ?_⟩
  cases howner : bridge.partition.ownerOf index with
  | none => exact ⟨[], by simp [bufferButton, EventRouting.routeButton, howner, pushAll]⟩
  | some owner =>
      exact ⟨[(owner, .key ("AG0" ++ toString index) pressed nowMs)], by
        simp [bufferButton, EventRouting.routeButton, howner, pushAll]⟩

theorem pushesOnly_routePosition (bridge : BridgeRuntime World) (nowMs index : Nat)
    (pressed : Bool) (event : PhysicalEvent) :
    PushesOnly bridge (bridge.routePosition out nowMs index pressed event).2 := by
  unfold routePosition
  split
  · exact .of_frame (frame_sendRadial out bridge event)
  · refine PushesOnly.trans ?_ (.of_frame (frame_sendRadial out _ event))
    split
    · exact .of_frame rfl
    · exact pushesOnly_bufferButton bridge index pressed nowMs
  · exact pushesOnly_bufferButton bridge index pressed nowMs

theorem pushesOnly_routeMicroEvent (bridge : BridgeRuntime World) (nowMs : Nat)
    (event : PhysicalEvent) :
    PushesOnly bridge (bridge.routeMicroEvent out nowMs event).2 := by
  cases event with
  | button index pressed => exact pushesOnly_routePosition out bridge nowMs index pressed _
  | microButton index pressed =>
      exact pushesOnly_routePosition out bridge nowMs index pressed _
  | taskButton | taskToggle | taskAction | catalogAction | modelCycle | usageSelect |
    encoderTurn | encoderButton => exact .of_frame (frame_sendRadial out bridge _)

theorem pushesOnly_routeTaskDeviceEvent (bridge : BridgeRuntime World) (deviceId : String)
    (slotCount nowMs : Nat) (event : PhysicalEvent) :
    PushesOnly bridge
      (bridge.routeTaskDeviceEvent out order deviceId slotCount nowMs event) := by
  unfold routeTaskDeviceEvent
  split
  next pressed =>
    have hdictated := frame_routeDesktopDictation out bridge pressed
    simp only
    split
    · exact .of_frame hdictated
    · split
      · exact .of_frame hdictated
      · exact .trans (.of_frame hdictated) (pushesOnly_routeMicroEvent out _ nowMs _)
  next => exact .of_frame (frame_routeModelCycle out order bridge)
  next agent => exact .of_frame (frame_routeUsageSelect out order bridge agent)
  next => exact .of_frame (frame_routeTaskToggle out order bridge _ _ _ _ _)
  next => exact .of_frame (frame_routeTaskAction order bridge _ _ _ _ _ _)
  next => exact .of_frame (frame_routeTaskButton out order bridge _ _ _ _ _ _)
  next action => exact .of_frame (frame_routeCatalogAction out order bridge _ action _)
  next index pressed =>
    have hrouted := frame_routeTaskButton out order bridge deviceId slotCount index pressed
      none nowMs
    simp only
    split
    · exact .of_frame hrouted
    · split
      · exact .of_frame hrouted
      · exact .trans (.of_frame hrouted) (pushesOnly_routeMicroEvent out _ nowMs _)
  next => exact pushesOnly_routeMicroEvent out bridge nowMs event

/-- No event changes the task mode or the task device. -/
theorem setting_routeTaskDeviceEvent (bridge : BridgeRuntime World) (deviceId : String)
    (slotCount nowMs : Nat) (event : PhysicalEvent) :
    (bridge.routeTaskDeviceEvent out order deviceId slotCount nowMs event).setting =
      bridge.setting :=
  (pushesOnly_routeTaskDeviceEvent out order bridge deviceId slotCount nowMs event).1

end BridgeRuntime
end Bridge
end MicroEmu
