import MicroEmu.Bridge.Display
import MicroEmu.Routing.Events
import MicroEmu.Tasks.Display

/-!
# The bridge runtime

The state one bridge process keeps: the task board, the routing queues, the
controllers and what they show.  Everything outside the process (clocks, the
serial port, the windows of the desktop applications, the controllers
themselves) is an `Outside`: a record of functions over the state of that
world, each of which answers and moves the world on.
-/

namespace MicroEmu
namespace Bridge

open Json (Value)
open Routing (AgentId)
open Codex (UsageAgent)
open Tasks (TaskBoard TaskCard WalkOrder)

/-! ## The world outside -/

/-- A call out of the process: an answer and the world it leaves. -/
abbrev Call (World α : Type) := World → α × World

/-- A call that may fail. -/
abbrev FallibleCall (World α : Type) := Call World (Except String α)

namespace FallibleCall

variable {World α : Type}

/-- Two calls in a row; a failure of the first skips the second. -/
def andThen (first second : FallibleCall World Unit) : FallibleCall World Unit :=
  fun world =>
    let done := first world
    match done.1 with
    | .error error => (.error error, done.2)
    | .ok () => second done.2

/-- A call made only when there is something to pass. -/
def optional (call : α → FallibleCall World Unit) : Option α → FallibleCall World Unit
  | none => fun world => (.ok (), world)
  | some value => call value

end FallibleCall

inductive ControllerKind where
  | ajazz
  | streamDeckPlus
  | streamDeckPlusXl
  | streamDeckXl
  /-- A virtual controller backed by a Stream Deck plugin session. -/
  | streamDeckPlugin
  | none
  deriving DecidableEq, Repr

def ControllerKind.asStr : ControllerKind → String
  | .ajazz => "ajazz"
  | .streamDeckPlus => "streamdeck-plus"
  | .streamDeckPlusXl => "streamdeck-plus-xl"
  | .streamDeckXl => "streamdeck-xl"
  | .streamDeckPlugin => "streamdeck-plugin"
  | .none => "none"

def ControllerKind.isPhysical (kind : ControllerKind) : Bool := kind != .none

/-- What a `PhysicalController` says about itself. -/
structure Device where
  kind : ControllerKind
  model : String
  serial : Option String
  deriving DecidableEq, Repr

/-- `device_id`. -/
def Device.deviceId (device : Device) : String :=
  match device.serial with
  | some serial => device.kind.asStr ++ ":" ++ serial
  | none => device.kind.asStr

/-- The functions the bridge calls outside its own state. -/
structure Outside (World : Type) where
  /-- `serde_json::to_vec`. -/
  toVec : Value → List UInt8
  /-- `serde_json::to_string_pretty`. -/
  toStringPretty : Value → String
  /-- `SystemTime::now`, in milliseconds. -/
  systemTime : Call World Nat
  /-- `Instant::now`, in milliseconds. -/
  instant : Call World Nat
  /-- One frame with its sequence number on the serial port. -/
  writeFrame : Nat → List UInt8 → FallibleCall World Unit
  /-- The events a controller has seen since it was last asked. -/
  poll : Device → FallibleCall World (List Codex.PhysicalEvent)
  applyTaskCards : Device → List Value → FallibleCall World Unit
  applyThreadStatus : Device → Value → FallibleCall World Unit
  applyDisplayContext : Device → DisplayContext → FallibleCall World Unit
  applyRgbConfig : Device → Value → FallibleCall World Unit
  shutdown : Device → Call World Unit
  /-- The windows of the agents' desktop applications. -/
  isForeground : AgentId → FallibleCall World Bool
  minimize : AgentId → FallibleCall World Unit
  showAndFocus : AgentId → FallibleCall World Unit
  microphoneActive : AgentId → Call World Bool
  setMicrophone : AgentId → Bool → FallibleCall World Unit
  /-- A request to open a session; the arguments are those of the agent's own
  window module. -/
  requestSessionSelection : AgentId → List String → Call World Unit
  searchTasks : FallibleCall World Unit
  toggleTerminal : FallibleCall World Unit
  cycleModel : FallibleCall World String
  /-- Model and effort of the Codex configuration file. -/
  readCodexConfig : Call World (Option String × Option String)
  /-- Project of the latest Codex session file. -/
  readLatestCodexSessionCwd : Call World (Option String)
  /-- Start the thread that fetches a usage snapshot. -/
  fetchUsage : UsageAgent → Call World Unit

/-- A world that stands still: every call succeeds, no window is in front and
nothing is read. -/
def Outside.idle : Outside Unit where
  toVec _ := []
  toStringPretty _ := ""
  systemTime _ := (0, ())
  instant _ := (0, ())
  writeFrame _ _ _ := (.ok (), ())
  poll _ _ := (.ok [], ())
  applyTaskCards _ _ _ := (.ok (), ())
  applyThreadStatus _ _ _ := (.ok (), ())
  applyDisplayContext _ _ _ := (.ok (), ())
  applyRgbConfig _ _ _ := (.ok (), ())
  shutdown _ _ := ((), ())
  isForeground _ _ := (.ok false, ())
  minimize _ _ := (.ok (), ())
  showAndFocus _ _ := (.ok (), ())
  microphoneActive _ _ := (false, ())
  setMicrophone _ _ _ := (.ok (), ())
  requestSessionSelection _ _ _ := ((), ())
  searchTasks _ := (.ok (), ())
  toggleTerminal _ := (.ok (), ())
  cycleModel _ := (.error "no window", ())
  readCodexConfig _ := ((none, none), ())
  readLatestCodexSessionCwd _ := (none, ())
  fetchUsage _ _ := ((), ())

/-! ## State -/

/-- `CONTROLLER_RETRY_INITIAL_DELAY`, in milliseconds. -/
def controllerRetryInitialDelay : Nat := 250

/-- `CONTROLLER_RETRY_MAX_DELAY`, in milliseconds. -/
def controllerRetryMaxDelay : Nat := 1000

/-- An auxiliary controller under the id it is registered with. -/
structure AuxController where
  deviceId : String
  device : Device
  slots : Nat
  deriving DecidableEq, Repr

structure BridgeRuntime (World : Type) where
  world : World
  /-- A serial runtime is open. -/
  hasSerial : Bool
  /-- Sequence number of the next frame, a `u16`. -/
  sequence : Nat
  controller : Option Device
  auxControllers : List AuxController
  controllerChoice : ControllerKind
  controllerSerial : Option String
  controllerRetryAt : Nat
  controllerRetryDelay : Nat
  lastThreadStatus : Option Value
  hasExplicitTaskState : Bool
  lastRgbConfig : Option Value
  lastDisplayContext : Option DisplayContext
  hasExplicitDisplayContext : Bool
  usageAgent : UsageAgent
  usageCache : UsageCache
  firmware : String
  port : String
  radialState : Codex.RadialState
  routing : Routing.EventRouting
  fusedLcd : Routing.FusedLcdState
  partition : Routing.Partition
  taskBoard : TaskBoard
  taskMode : Bool
  taskDeviceId : String
  taskSlotCount : Nat
  /-- Events for the owner sessions, with their session. -/
  pendingTaskEvents : List (Nat × Value)
  /-- The Codex messages written whole to the serial port so far. -/
  hidMessages : List Value

namespace BridgeRuntime

variable {World : Type} (out : Outside World) (order : WalkOrder)
variable (bridge : BridgeRuntime World)

/-- Make a call outside and keep the world it leaves. -/
def call {α : Type} (ask : Call World α) : α × BridgeRuntime World :=
  ((ask bridge.world).1, { bridge with world := (ask bridge.world).2 })

/-- Make a call whose answer is dropped or only printed. -/
def tell {α : Type} (ask : Call World α) : BridgeRuntime World :=
  { bridge with world := (ask bridge.world).2 }

/-- Queue an event for an owner session. -/
def pushTaskEvent (session : Nat) (event : Value) : BridgeRuntime World :=
  { bridge with pendingTaskEvents := bridge.pendingTaskEvents ++ [(session, event)] }

/-- `open_runtime` without a serial port and without controllers; Codex is the
sole agent until the daemon computes a partition. -/
def opened (world : World) (now : Nat) : BridgeRuntime World where
  world := world
  hasSerial := false
  sequence := 1
  controller := none
  auxControllers := []
  controllerChoice := .none
  controllerSerial := none
  controllerRetryAt := now + controllerRetryInitialDelay
  controllerRetryDelay := controllerRetryInitialDelay
  lastThreadStatus := none
  hasExplicitTaskState := false
  lastRgbConfig := none
  lastDisplayContext := none
  hasExplicitDisplayContext := false
  usageAgent := .codex
  usageCache := {}
  firmware := "standalone"
  port := "none"
  radialState := {}
  routing := .new
  fusedLcd := .new
  partition := .compute (· == .codex)
  taskBoard := {}
  taskMode := false
  taskDeviceId := ControllerKind.none.asStr
  taskSlotCount := 0
  pendingTaskEvents := []
  hidMessages := []

/-! ## The Codex HID device -/

/-- The frames of one message; the first failing write ends it. -/
def writeReports : List (List UInt8) → BridgeRuntime World →
    Except String Unit × BridgeRuntime World
  | [], bridge => (.ok (), bridge)
  | report :: reports, bridge =>
      let numbered := { bridge with sequence := (bridge.sequence + 1) % 2 ^ 16 }
      let written := numbered.call (out.writeFrame bridge.sequence report)
      match written.1 with
      | .error error => (.error error, written.2)
      | .ok () => writeReports reports written.2

/-- `send_codex`: without a serial runtime this is a no-op. -/
def sendCodex (message : Value) : Except String Unit × BridgeRuntime World :=
  if bridge.hasSerial then
    match Codex.frameJson out.toVec message with
    | .error error => (.error error, bridge)
    | .ok reports =>
        let written := writeReports out reports bridge
        match written.1 with
        | .error error => (.error error, written.2)
        | .ok () =>
            (.ok (), { written.2 with hidMessages := written.2.hidMessages ++ [message] })
  else
    (.ok (), bridge)

/-! ## What the controllers should show -/

/-- The colors of the standby cards. -/
def defaultColors : List Nat :=
  [0x1565c0, 0x00897b, 0x6a1b9a, 0xef6c00, 0x2e7d32, 0xad1457, 0x0277bd, 0x5d4037, 0x455a64]

/-- One standby card; without a partition every card is on. -/
def connectionDefaultCard (partition : Option Routing.Partition) (id : Nat) : Value :=
  let owner := partition.bind fun partition => partition.ownerOf id
  let enabled := partition.isNone || owner.isSome
  .object ([("id", .ofNat id), ("e", .ofNat enabled.toNat),
    ("c", .ofNat (defaultColors.getD id 0)), ("status", .string "idle"),
    ("b", .number (.float (if enabled then Json.toF64 (7 / 10) else 0)))] ++
    (owner.map fun agent => ("agent", Value.string agent.asStr)).toList)

/-- `connection_default_cards`. -/
def connectionDefaultCards (slotCount : Nat) (partition : Option Routing.Partition) :
    List Value :=
  (List.range (min slotCount Tasks.codexTaskSlots)).map (connectionDefaultCard partition)

/-- The task state is explicit: published, or reported by a status frame. -/
def explicitState : Bool := bridge.hasExplicitTaskState || bridge.lastThreadStatus.isSome

/-- `desired_primary_cards`. -/
def desiredPrimaryCards : List Value :=
  if bridge.taskMode then
    if bridge.explicitState then
      if bridge.taskBoard.hasTasks || bridge.lastThreadStatus.isNone then
        bridge.taskBoard.renderedSlots order bridge.taskDeviceId bridge.taskSlotCount
      else
        bridge.fusedLcd.fusedArray bridge.partition
    else
      connectionDefaultCards bridge.taskSlotCount (some bridge.partition)
  else if bridge.explicitState then
    bridge.fusedLcd.fusedArray bridge.partition
  else
    connectionDefaultCards bridge.taskSlotCount none

/-- The cards of an auxiliary controller. -/
def desiredAuxCards (aux : AuxController) : List Value :=
  if bridge.explicitState then
    if bridge.taskBoard.hasTasks then
      bridge.taskBoard.renderedSlots order aux.deviceId aux.slots
    else
      bridge.fusedLcd.fusedArray bridge.partition
  else
    connectionDefaultCards aux.slots none

/-- `display_context_for_controller`: the selected card of the device over the
base context; a card context that does not parse leaves the base. -/
def displayContextForController (context : DisplayContext) (deviceId : String) :
    DisplayContext :=
  let resolved :=
    match (bridge.taskBoard.selectedDisplayContext deviceId).bind fun value =>
        (DisplayContext.fromValue value).toOption with
    | some selected => context.overlay selected
    | none => context
  { resolved with agentsUsage := some bridge.usageCache.usageMap }

/-- `desired_context_for_device`. -/
def desiredContextForDevice (deviceId : String) : DisplayContext :=
  bridge.displayContextForController
    (bridge.lastDisplayContext.getD DisplayContext.connectionDefault) deviceId

/-- `apply_controller_state`. -/
def applyControllerState (device : Device) (cards : List Value) (context : DisplayContext)
    (rgbConfig : Option Value) : FallibleCall World Unit :=
  (out.applyTaskCards device cards).andThen
    ((out.applyDisplayContext device context).andThen
      (FallibleCall.optional (out.applyRgbConfig device) rgbConfig))

/-! ## Refreshing the controllers -/

/-- `schedule_controller_retry`. -/
def scheduleControllerRetry : BridgeRuntime World :=
  if bridge.controllerChoice.isPhysical then
    let asked := bridge.call out.instant
    { asked.2 with
      controllerRetryAt := asked.1 + bridge.controllerRetryDelay
      controllerRetryDelay := min (bridge.controllerRetryDelay * 2) controllerRetryMaxDelay }
  else
    bridge

/-- `detach_controller`. -/
def detachController : BridgeRuntime World :=
  let closed := match bridge.controller with
    | none => bridge
    | some device => { bridge with controller := none }.tell (out.shutdown device)
  closed.scheduleControllerRetry out

/-- The session a selection event names as its owner. -/
def selectionOwner (selection : Value) : Nat :=
  ((selection.get? "owner_session").bind Value.asU64).getD 0

/-- Select a waiting task of the primary device and queue the event for its
owner. -/
def autoSelect : BridgeRuntime World :=
  let asked := bridge.call out.systemTime
  let selection := asked.2.taskBoard.autoSelectWaiting order asked.2.taskDeviceId asked.1
  let selected := { asked.2 with taskBoard := selection.2 }
  match selection.1 with
  | none => selected
  | some selection => selected.pushTaskEvent (selectionOwner selection) selection

/-- The rendering loop over the auxiliary controllers: one that fails is shut
down and its device leaves the board. -/
def refreshAux : List AuxController → BridgeRuntime World →
    List AuxController × BridgeRuntime World
  | [], bridge => ([], bridge)
  | aux :: rest, bridge =>
      let rendered := bridge.call (applyControllerState out aux.device
        (bridge.desiredAuxCards order aux) (bridge.desiredContextForDevice aux.deviceId)
        bridge.lastRgbConfig)
      match rendered.1 with
      | .error _ =>
          let closed := rendered.2.tell (out.shutdown aux.device)
          refreshAux rest { closed with
            taskBoard := closed.taskBoard.setDevice order aux.deviceId 0 false }
      | .ok () =>
          let last := refreshAux rest rendered.2
          (aux :: last.1, last.2)

/-- Render the primary controller, if one is attached. -/
def renderPrimary : Except String Unit × BridgeRuntime World :=
  match bridge.controller with
  | none => (.ok (), bridge)
  | some device => bridge.call (applyControllerState out device
      (bridge.desiredPrimaryCards order)
      (bridge.desiredContextForDevice bridge.taskDeviceId) bridge.lastRgbConfig)

/-- `refresh_task_board`. -/
def refreshTaskBoard : Except String Unit × BridgeRuntime World :=
  if !bridge.taskMode then (.ok (), bridge)
  else
    let selected := bridge.autoSelect out order
    let rendered := selected.renderPrimary out order
    match rendered.1 with
    | .error error => (.error error, rendered.2.detachController out)
    | .ok () =>
        -- the auxiliary controllers are taken out while the loop runs
        let last := refreshAux out order rendered.2.auxControllers
          { rendered.2 with auxControllers := [] }
        (.ok (), { last.2 with auxControllers := last.1 })

/-- A refresh whose result the caller drops. -/
def refresh : BridgeRuntime World := (bridge.refreshTaskBoard out order).2

/-! ## The display context of the bridge -/

/-- The task an auto-derived context describes: the selected one, else the
unfinished one on the lowest slot. -/
def contextTask : Option TaskCard :=
  bridge.taskBoard.selectedTask.or
    (Library.minBy?
      (fun a b =>
        let place (task : TaskCard) : Nat :=
          ((bridge.taskBoard.assignments[task.taskId]?).map (·.slot.slot)).getD (2 ^ 64 - 1)
        compare (place a) (place b))
      ((order.values bridge.taskBoard.tasks).filter fun task => task.state != .completed))

/-- The context derived from a task, or from none. -/
def derivedContext (task : Option TaskCard) (config : Option String × Option String)
    (project : Option String) : DisplayContext :=
  match task with
  | some task =>
      { project := task.project.or project
        task := if task.title = "" then none else some task.title
        model := task.model.or config.1
        effort := task.effort.or config.2
        status := some task.state.asStr
        progress := task.progress
        taskId := some task.taskId }
  | none =>
      { project := project, model := config.1, effort := config.2, status := some "idle" }

/-- `auto_derive_display_context`: an explicit context is left alone. -/
def autoDeriveDisplayContext : BridgeRuntime World :=
  if bridge.hasExplicitDisplayContext then bridge
  else
    let config := bridge.call out.readCodexConfig
    let project := config.2.call out.readLatestCodexSessionCwd
    let usage := (project.2.usageCache.snapshot project.2.usageAgent).getD {}
    { project.2 with
      lastDisplayContext := some ((derivedContext (project.2.contextTask order) config.1
        project.1).withUsage usage project.2.usageAgent) }

/-- `patch_display_context_usage`: only an explicit context is patched. -/
def patchDisplayContextUsage : BridgeRuntime World :=
  if bridge.hasExplicitDisplayContext then
    { bridge with
      lastDisplayContext := bridge.lastDisplayContext.map fun context =>
        context.withUsage ((bridge.usageCache.snapshot bridge.usageAgent).getD {})
          bridge.usageAgent }
  else
    bridge

/-- `request_refresh` of the usage cache. -/
def requestUsageRefresh (agent : UsageAgent) : BridgeRuntime World :=
  let asked := bridge.call out.instant
  if asked.2.usageCache.wantsRefresh agent asked.1 then
    { asked.2 with
      usageCache := { asked.2.usageCache with pending := asked.2.usageCache.pending ++ [agent] }
      : BridgeRuntime World }.tell (out.fetchUsage agent)
  else
    asked.2

end BridgeRuntime
end Bridge
end MicroEmu
