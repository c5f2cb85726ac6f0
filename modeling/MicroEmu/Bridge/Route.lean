import MicroEmu.Bridge.Runtime

/-!
# Routing physical events

What the bridge does with the events of its controllers.  The primary controller
and the auxiliary ones are served by two loops with the same vocabulary of
routes: a task card, its action and its toggle, the catalog actions, the
desktop's dictation, and the Micro positions with their owners.
-/

namespace MicroEmu
namespace Bridge

open Json (Value)
open Routing (AgentId)
open Codex (CatalogAction PhysicalEvent UsageAgent)
open Tasks (TaskBoard TaskCard TaskInteraction WalkOrder)

/-! ## Synthetic owner sessions -/

/-- Owner of the cards published by the ZCode poll. -/
def zcodePollSession : Nat := 999

/-- Owner of the cards mirrored from Hermes. -/
def hermesPollSession : Nat := 998

/-- Owner of the cards mirrored from Claude Code. -/
def claudePollSession : Nat := 997

/-- `catalog_action_session`: the newest live session of an agent. -/
def catalogActionSession : AgentId → Nat
  | .codex => 2 ^ 64 - 1
  | .zCode => 2 ^ 64 - 2
  | .hermes => 2 ^ 64 - 3
  | .claude => 2 ^ 64 - 4

/-- `catalog_action_agent`. -/
def catalogActionAgent (session : Nat) : Option AgentId :=
  [AgentId.codex, .zCode, .hermes, .claude].find? fun agent =>
    catalogActionSession agent == session

namespace BridgeRuntime

variable {World : Type} (out : Outside World) (order : WalkOrder)
variable (bridge : BridgeRuntime World)

/-! ## Task cards -/

/-- `resolve_task_target`: an explicit id, else the task at the position. -/
def resolveTaskTarget (deviceId : String) (index : Nat) (taskId : Option String) :
    Option TaskCard :=
  match taskId with
  | some taskId => bridge.taskBoard.tasks[taskId]?
  | none => bridge.taskBoard.taskAt order deviceId index

/-- The position is a task card: task mode is on and it is in range. -/
def cardInRange (slotCount index : Nat) : Bool :=
  bridge.taskMode && decide (index < slotCount)

/-- Select the pressed task and queue the selection for its owner. -/
def selectPressed (deviceId : String) (index : Nat) (taskId : Option String)
    (task : TaskCard) (nowMs : Nat) : BridgeRuntime World :=
  let selection := match taskId with
    | some taskId => bridge.taskBoard.selectTask taskId nowMs
    | none => bridge.taskBoard.select order deviceId index nowMs
  let selected := { bridge with taskBoard := selection.2 }
  match selection.1 with
  | none => selected
  | some selection => selected.pushTaskEvent task.ownerSession selection

/-- The press of an auto-fed card drives the desktop application itself. -/
def driveDesktop (task : TaskCard) : BridgeRuntime World :=
  match task.ownerAgent with
  | .zCode =>
      if task.ownerSession = zcodePollSession then
        bridge.tell (out.requestSessionSelection .zCode [task.title])
      else bridge
  | .hermes =>
      if task.ownerSession = hermesPollSession then
        bridge.tell (out.requestSessionSelection .hermes [task.taskId, task.title])
      else bridge
  | .claude =>
      if task.ownerSession = claudePollSession then
        bridge.tell (out.requestSessionSelection .claude [task.taskId])
      else bridge
  | .codex => bridge

/-- The event of a legacy key for the owner session. -/
def keyEvent (key : String) (pressed : Bool) (nowMs : Nat) : Value :=
  .object [("type", .string "key"), ("key", .string key), ("pressed", .bool pressed),
    ("ts", .ofNat nowMs)]

/-- The HID message of one edge of a legacy key. -/
def legacyMessage (key : String) (pressed : Bool) : Option Value :=
  match Codex.messagesForSyntheticKey key with
  | .error _ => none
  | .ok messages => if pressed then messages.head? else messages.getLast?

/-- Send the HID message of a legacy key; a failed write is not reported. -/
def sendLegacyKey (key : String) (pressed : Bool) : BridgeRuntime World :=
  if bridge.hasSerial then
    match legacyMessage key pressed with
    | none => bridge
    | some message => (bridge.sendCodex out message).2
  else
    bridge

/-- The legacy key pair of a card. -/
def routeLegacyKey (task : TaskCard) (pressed : Bool) (nowMs : Nat) : BridgeRuntime World :=
  match task.legacyKey with
  | none => bridge
  | some key =>
      let guarded :=
        if pressed ∧ task.ownerSession = 0 then
          { bridge with
            taskBoard := bridge.taskBoard.guardSelectionActivation task.taskId nowMs }
        else bridge
      let queued := guarded.pushTaskEvent task.ownerSession (keyEvent key pressed nowMs)
      if task.ownerSession = 0 then queued.sendLegacyKey out key pressed else queued

/-- `route_task_button`: the answer says whether the event was consumed. -/
def routeTaskButton (deviceId : String) (slotCount index : Nat) (pressed : Bool)
    (taskId : Option String) (nowMs : Nat) : Bool × BridgeRuntime World :=
  if bridge.cardInRange slotCount index then
    match bridge.resolveTaskTarget order deviceId index taskId with
    | none => (taskId.isSome, bridge)
    | some task =>
        -- selection is edge-triggered; a release only completes the key pair
        let chosen :=
          if pressed then
            (bridge.selectPressed order deviceId index taskId task nowMs).driveDesktop out task
          else bridge
        (true, chosen.routeLegacyKey out task pressed nowMs)
  else
    (false, bridge)

/-- The action a gesture asks of a waiting task. -/
def gestureAction (interaction : TaskInteraction) (gesture : String) : Option Tasks.TaskAction :=
  match gesture with
  | "short" => interaction.short
  | "long" => interaction.long
  | _ => none

/-- The `task_action` event. -/
def taskActionEvent (task : TaskCard) (interaction : TaskInteraction)
    (action : Tasks.TaskAction) (gesture : String) (nowMs : Nat) : Value :=
  .object [("type", .string "task_action"), ("task_id", .string task.taskId),
    ("interaction_id", .string interaction.id), ("action_id", .string action.id),
    ("action", .string action.action), ("payload", action.payload),
    ("gesture", .string gesture), ("ts", .ofNat nowMs)]

/-- `route_task_action`. -/
def routeTaskAction (deviceId : String) (slotCount index : Nat) (gesture : String)
    (taskId : Option String) (nowMs : Nat) : Bool × BridgeRuntime World :=
  if bridge.cardInRange slotCount index then
    match bridge.resolveTaskTarget order deviceId index taskId with
    | none => (taskId.isSome, bridge)
    | some task =>
        if task.state ≠ .waiting ∨
            (bridge.taskBoard.selectedTask).all (·.taskId != task.taskId) then
          (true, bridge)
        else
          match task.interaction with
          | none => (true, bridge)
          | some interaction =>
              if interaction.expiresAtMs.any (fun expires => decide (expires ≤ nowMs)) then
                (true, bridge)
              else
                match gestureAction interaction gesture with
                | none => (true, bridge)
                | some action =>
                    (true, bridge.pushTaskEvent task.ownerSession
                      (taskActionEvent task interaction action gesture nowMs))
  else
    (false, bridge)

/-- Press and release a task by its id. -/
def clickTask (deviceId : String) (slotCount index : Nat) (taskId : String) (nowMs : Nat) :
    BridgeRuntime World :=
  let pressed :=
    (bridge.routeTaskButton out order deviceId slotCount index true (some taskId) nowMs).2
  (pressed.routeTaskButton out order deviceId slotCount index false (some taskId) nowMs).2

/-- `route_task_toggle`: the window of the owner agent is minimized when it is in
front, else the task is clicked and the window raised. -/
def routeTaskToggle (deviceId : String) (slotCount index : Nat) (taskId : Option String)
    (nowMs : Nat) : Bool × BridgeRuntime World :=
  if bridge.cardInRange slotCount index then
    match bridge.resolveTaskTarget order deviceId index taskId with
    | none => (taskId.isSome, bridge)
    | some task =>
        let asked := bridge.call (out.isForeground task.ownerAgent)
        match asked.1 with
        | .ok true => (true, asked.2.tell (out.minimize task.ownerAgent))
        | _ =>
            let clicked := asked.2.clickTask out order deviceId slotCount index task.taskId nowMs
            (true, clicked.tell (out.showAndFocus task.ownerAgent))
  else
    (false, bridge)

/-! ## The desktop -/

/-- The first agent whose window dictates or is in front. -/
def dictationTarget : List AgentId → Call World (Option AgentId)
  | [], world => (none, world)
  | agent :: rest, world =>
      let active := out.microphoneActive agent world
      if active.1 then (some agent, active.2)
      else
        let front := out.isForeground agent active.2
        match front.1 with
        | .ok true => (some agent, front.2)
        | _ => dictationTarget rest front.2

/-- `route_desktop_dictation`. -/
def routeDesktopDictation (pressed : Bool) : Bool × BridgeRuntime World :=
  let asked := bridge.call (dictationTarget out [.zCode, .hermes, .claude])
  match asked.1 with
  | none => (false, asked.2)
  | some agent => (true, asked.2.tell (out.setMicrophone agent pressed))

/-! ## Catalog actions -/

/-- `catalog_target_session`: a synthetic owner is replaced by the newest live
session of its agent. -/
def catalogTargetSession (task : Option TaskCard) : Nat × AgentId :=
  let agent := (task.map (·.ownerAgent)).getD .codex
  match task.map (·.ownerSession) with
  | some session =>
      if session = 0 ∨ session = zcodePollSession ∨ session = hermesPollSession ∨
          session = claudePollSession then
        (catalogActionSession agent, agent)
      else
        (session, agent)
  | none => (catalogActionSession agent, agent)

/-- The occupied slots of a device, in ascending order. -/
def occupiedSlots (deviceId : String) : List Nat :=
  ((((order.values bridge.taskBoard.tasks).filterMap fun task =>
      bridge.taskBoard.assignments[task.taskId]?).filter fun assignment =>
        assignment.slot.deviceId == deviceId).map (·.slot.slot)
    |>.insertionSort (· ≤ ·)).dedup

/-- The slot a navigation goes to; the ends wrap around. -/
def navigationTarget (slots : List Nat) (current : Option Nat) (action : CatalogAction) :
    Option Nat :=
  match action with
  | .taskFirst => slots.head?
  | .taskLast => slots.getLast?
  | .taskNext =>
      (current.bind fun slot => slots.find? fun candidate => decide (candidate > slot)).or
        slots.head?
  | .taskPrevious =>
      (current.bind fun slot =>
        slots.reverse.find? fun candidate => decide (candidate < slot)).or slots.getLast?
  | _ => none

/-- `route_catalog_task_navigation`. -/
def routeCatalogTaskNavigation (deviceId : String) (action : CatalogAction) (nowMs : Nat) :
    BridgeRuntime World :=
  match navigationTarget (bridge.occupiedSlots order deviceId)
      (bridge.taskBoard.selectedSlot deviceId) action with
  | none => bridge
  | some target =>
      match bridge.taskBoard.taskAt order deviceId target with
      | none => bridge
      | some task =>
          let selection := bridge.taskBoard.select order deviceId target nowMs
          let selected := { bridge with taskBoard := selection.2 }
          match selection.1 with
          | none => selected
          | some selection =>
              selected.pushTaskEvent (catalogTargetSession (some task)).1 selection

/-- The four actions that move the selection. -/
def isNavigation : CatalogAction → Bool
  | .taskPrevious | .taskNext | .taskFirst | .taskLast => true
  | _ => false

/-- The `catalog_action` event. -/
def catalogEvent (action : String) (agent : AgentId) (taskId : Option String)
    (deviceId : String) (nowMs : Nat) : Value :=
  .object [("type", .string "catalog_action"), ("action", .string action),
    ("agent", .string agent.asStr), ("task_id", .ofOptString taskId),
    ("device_id", .string deviceId), ("ts", .ofNat nowMs)]

/-- `route_catalog_action`. -/
def routeCatalogAction (deviceId : String) (action : CatalogAction) (nowMs : Nat) :
    BridgeRuntime World :=
  if isNavigation action then bridge.routeCatalogTaskNavigation order deviceId action nowMs
  else
    let task := bridge.taskBoard.selectedTask
    let target := catalogTargetSession task
    if action = .agentSearch ∧ target.2 = .codex then bridge.tell out.searchTasks
    else if action = .agentOpenTerminal ∧ target.2 = .codex then
      bridge.tell out.toggleTerminal
    else
      bridge.pushTaskEvent target.1
        (catalogEvent action.asStr target.2 (task.map (·.taskId)) deviceId nowMs)

/-! ## Usage and model selection -/

/-- `route_usage_select`. -/
def routeUsageSelect (agent : UsageAgent) : BridgeRuntime World :=
  let asked := { bridge with usageAgent := agent }.call out.instant
  let requested :=
    if bridge.usageAgent ≠ agent ∨
        !asked.2.usageCache.refreshedWithin agent usageRefreshInterval asked.1 then
      asked.2.requestUsageRefresh out agent
    else asked.2
  ((requested.autoDeriveDisplayContext out order).patchDisplayContextUsage).refresh out order

/-- `route_model_cycle`. -/
def routeModelCycle : BridgeRuntime World :=
  match bridge.taskBoard.selectedTask.filter (·.ownerAgent != .codex) with
  | some task =>
      let target := catalogTargetSession (some task)
      let asked := bridge.call out.systemTime
      asked.2.pushTaskEvent target.1
        (catalogEvent "agent.cycle-model" target.2 (some task.taskId) asked.2.taskDeviceId
          asked.1)
  | none =>
      let asked := bridge.call out.cycleModel
      match asked.1 with
      | .error _ => asked.2
      | .ok model =>
          { asked.2 with
            taskBoard := (asked.2.taskBoard.setSelectedModel model).2
            lastDisplayContext := asked.2.lastDisplayContext.map fun context =>
              { context with model := some model } : BridgeRuntime World }.refresh out order

/-! ## Micro positions -/

/-- Send the HID message of a physical event, if it has one. -/
def sendRadial (event : PhysicalEvent) : Except String Unit × BridgeRuntime World :=
  let message := bridge.radialState.event event
  let turned := { bridge with radialState := message.2 }
  match message.1 with
  | none => (.ok (), turned)
  | some message => if turned.hasSerial then turned.sendCodex out message else (.ok (), turned)

/-- `routing.route_button` with the bridge's own partition. -/
def bufferButton (index : Nat) (pressed : Bool) (nowMs : Nat) : BridgeRuntime World :=
  { bridge with routing := bridge.routing.routeButton index pressed nowMs bridge.partition }

/-- A Micro position goes to the agent that owns it; what Codex owns, and what
nobody owns, goes to the HID device. -/
def routePosition (nowMs index : Nat) (pressed : Bool) (event : PhysicalEvent) :
    Except String Unit × BridgeRuntime World :=
  match bridge.partition.ownerOf index with
  | none => bridge.sendRadial out event
  | some .codex =>
      -- without a serial link the press is kept for the Codex session
      (if bridge.hasSerial then bridge
        else bridge.bufferButton index pressed nowMs).sendRadial out event
  | some _ => (.ok (), bridge.bufferButton index pressed nowMs)

/-- The tail of both loops. -/
def routeMicroEvent (nowMs : Nat) (event : PhysicalEvent) :
    Except String Unit × BridgeRuntime World :=
  match event with
  | .button index pressed => bridge.routePosition out nowMs index pressed event
  | .microButton index pressed => bridge.routePosition out nowMs index pressed event
  | _ => bridge.sendRadial out event

/-! ## The primary controller -/

/-- The gesture of a task action. -/
def gestureName (gesture : Nat) : String := if gesture = 0 then "short" else "long"

/-- The attached primary controller is the task device. -/
def ownsTaskDevice : Bool :=
  bridge.controller.any fun device => device.deviceId == bridge.taskDeviceId

/-- One event in the loop of `poll_controller`. -/
def pollEvent (nowMs : Nat) (event : PhysicalEvent) :
    Except String Unit × BridgeRuntime World :=
  match event with
  | .encoderButton 2 pressed =>
      let dictated := bridge.routeDesktopDictation out pressed
      if dictated.1 then (.ok (), dictated.2)
      else if !dictated.2.hasSerial then
        (.ok (), dictated.2.tell (out.setMicrophone .codex pressed))
      else dictated.2.routeMicroEvent out nowMs event
  | .modelCycle => (.ok (), bridge.routeModelCycle out order)
  | .usageSelect agent => (.ok (), bridge.routeUsageSelect out order agent)
  | .taskAction index gesture taskId =>
      (.ok (), (bridge.routeTaskAction order bridge.taskDeviceId bridge.taskSlotCount index
        (gestureName gesture) taskId nowMs).2)
  | .taskButton index pressed taskId =>
      (.ok (), (bridge.routeTaskButton out order bridge.taskDeviceId bridge.taskSlotCount index
        pressed taskId nowMs).2)
  | .catalogAction action =>
      (.ok (), bridge.routeCatalogAction out order bridge.taskDeviceId action nowMs)
  | .button index pressed =>
      let routed := bridge.routeTaskButton out order bridge.taskDeviceId
        bridge.taskSlotCount index pressed none nowMs
      if routed.1 then (.ok (), routed.2)
      -- an empty task card is inert while task mode is on
      else if routed.2.taskMode && routed.2.ownsTaskDevice &&
          decide (index < routed.2.taskSlotCount) then (.ok (), routed.2)
      else routed.2.routeMicroEvent out nowMs event
  | _ => bridge.routeMicroEvent out nowMs event

/-- The event loop of `poll_controller`: a failed HID write ends it, and with it
the daemon. -/
def pollEvents (nowMs : Nat) : List PhysicalEvent → BridgeRuntime World →
    Except String Unit × BridgeRuntime World
  | [], bridge => (.ok (), bridge)
  | event :: events, bridge =>
      let routed := bridge.pollEvent out order nowMs event
      match routed.1 with
      | .error error => (.error error, routed.2)
      | .ok () => pollEvents nowMs events routed.2

/-- What `poll_controller` does with the events of the primary controller. -/
def routePrimaryEvents (events : List PhysicalEvent) :
    Except String Unit × BridgeRuntime World :=
  let asked := bridge.call out.systemTime
  pollEvents out order asked.1 events asked.2

/-! ## Auxiliary controllers -/

/-- One event in the loop of `route_task_device_events`. -/
def routeTaskDeviceEvent (deviceId : String) (slotCount nowMs : Nat) (event : PhysicalEvent) :
    BridgeRuntime World :=
  match event with
  | .encoderButton 2 pressed =>
      let dictated := bridge.routeDesktopDictation out pressed
      if dictated.1 then dictated.2
      else if !dictated.2.hasSerial then dictated.2.tell (out.setMicrophone .codex pressed)
      else (dictated.2.routeMicroEvent out nowMs event).2
  | .modelCycle => bridge.routeModelCycle out order
  | .usageSelect agent => bridge.routeUsageSelect out order agent
  | .taskToggle index taskId =>
      (bridge.routeTaskToggle out order deviceId slotCount index taskId nowMs).2
  | .taskAction index gesture taskId =>
      (bridge.routeTaskAction order deviceId slotCount index (gestureName gesture) taskId
        nowMs).2
  | .taskButton index pressed taskId =>
      (bridge.routeTaskButton out order deviceId slotCount index pressed taskId nowMs).2
  | .catalogAction action => bridge.routeCatalogAction out order deviceId action nowMs
  | .button index pressed =>
      let routed :=
        bridge.routeTaskButton out order deviceId slotCount index pressed none nowMs
      if routed.1 then routed.2
      else if routed.2.taskMode && decide (index < slotCount) then routed.2
      else (routed.2.routeMicroEvent out nowMs event).2
  | _ => (bridge.routeMicroEvent out nowMs event).2

/-- The loop of `route_task_device_events`: a failed HID write is not reported. -/
def routeDeviceEvents (deviceId : String) (slotCount nowMs : Nat) (events : List PhysicalEvent) :
    BridgeRuntime World :=
  events.foldl
    (fun bridge event => bridge.routeTaskDeviceEvent out order deviceId slotCount nowMs event)
    bridge

/-- `route_task_device_events`. -/
def routeTaskDeviceEvents (deviceId : String) (slotCount : Nat) (events : List PhysicalEvent) :
    BridgeRuntime World :=
  let asked := bridge.call out.systemTime
  asked.2.routeDeviceEvents out order deviceId slotCount asked.1 events

/-! ## Polling -/

/-- The task device is gone with its controller. -/
def forgetTaskDevice : BridgeRuntime World :=
  { bridge with
    taskDeviceId := "none"
    taskSlotCount := 0
    taskBoard := bridge.taskBoard.setSlotOwners order "none" [] }

/-- The polling loop over the auxiliary controllers. -/
def pollAux : List AuxController → BridgeRuntime World →
    List AuxController × BridgeRuntime World
  | [], bridge => ([], bridge)
  | aux :: rest, bridge =>
      let polled := bridge.call (out.poll aux.device)
      match polled.1 with
      | .ok events =>
          let last := pollAux rest
            (polled.2.routeTaskDeviceEvents out order aux.deviceId aux.slots events)
          (aux :: last.1, last.2)
      | .error _ =>
          let closed := polled.2.tell (out.shutdown aux.device)
          let removed := { closed with
            taskBoard := closed.taskBoard.setDevice order aux.deviceId 0 false }
          pollAux rest
            (if removed.controller.isNone ∧ removed.taskDeviceId = aux.deviceId then
              removed.forgetTaskDevice order
            else removed)

/-- The events of the primary controller in `poll_controller`. -/
def pollPrimary : Except String Unit × BridgeRuntime World :=
  match bridge.controller with
  | none => (.ok (), bridge)
  | some device =>
      let polled := bridge.call (out.poll device)
      match polled.1 with
      | .error _ => (.ok (), polled.2.detachController out)
      | .ok events => polled.2.routePrimaryEvents out order events

/-- `poll_controller`. -/
def pollController : Except String Unit × BridgeRuntime World :=
  let polled := bridge.pollPrimary out order
  match polled.1 with
  | .error error => (.error error, polled.2)
  | .ok () =>
      -- the auxiliary controllers are taken out while the loop runs
      let last := pollAux out order polled.2.auxControllers
        { polled.2 with auxControllers := [] }
      (.ok (), { last.2 with auxControllers := last.1 })

end BridgeRuntime
end Bridge
end MicroEmu
