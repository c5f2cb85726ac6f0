import MicroEmu.Daemon.Requests

/-!
# Controllers of the daemon

How the daemon opens its runtime, connects and reconnects the configured controller,
attaches and detaches the controllers of Stream Deck plugins, and which owners it gives to
the slots of the task device.
-/

namespace MicroEmu
namespace Daemon

open Json (Value)
open Routing (AgentId)
open Bridge (AuxController BridgeRuntime Call ControllerKind Device FallibleCall Outside)
open Codex (UsageAgent)
open Tasks (WalkOrder)

/-- The functions outside that the main loop calls besides those of the bridge. -/
structure Host (World : Type) extends Outside World where
  /-- Open the hardware of a controller: its model and its serial number. -/
  connect : ControllerKind → Option String → FallibleCall World (String × Option String)
  /-- `PluginController::new` with the channels of a session. -/
  attachPlugin : Nat → String → Nat → World → World
  /-- `task_slot_agent_overrides`. -/
  slotAgentOverrides : Device → World → Option (List (Nat × AgentId))

/-! ## Devices -/

/-- What a `PluginController` says about itself. -/
def pluginDevice (instanceId : String) : Device :=
  ⟨.streamDeckPlugin, "streamdeck-plugin", some instanceId⟩

/-- The device id of a plugin. -/
def pluginId (instanceId : String) : String := (pluginDevice instanceId).deviceId

/-- `task_slot_count` of the devices that do not report it themselves. -/
def Device.taskSlotCount (device : Device) : Nat :=
  match device.kind with
  | .ajazz => 6
  | .streamDeckPlus => 8
  | .streamDeckPlusXl => 8
  | .streamDeckXl => 8
  | .streamDeckPlugin => 0
  | .none => 0

/-- A device named in the options. -/
structure DeviceSpec where
  kind : ControllerKind
  serial : Option String
  taskSlots : Option Nat
  deriving DecidableEq, Repr

/-- The options that say which controllers to open. -/
structure Options where
  controller : ControllerKind
  controllerSerial : Option String
  devices : List DeviceSpec
  deriving DecidableEq, Repr

/-- What opening the serial port has given. -/
structure SerialLink where
  hasSerial : Bool
  firmware : String
  port : String
  sequence : Nat
  deriving DecidableEq, Repr

/-- The port is `none`. -/
def SerialLink.standalone : SerialLink := ⟨false, "standalone", "none", 1⟩

section

variable {World : Type} (host : Host World) (order : WalkOrder)

/-- `connect_controller`. -/
def connectController (choice : ControllerKind) (serial : Option String) :
    FallibleCall World (Option Device) := fun world =>
  match choice with
  | .none => (.ok none, world)
  | .streamDeckPlugin =>
      (.error "streamdeck-plugin controller is daemon-managed and not selectable from the CLI",
        world)
  | kind =>
      let opened := host.connect kind serial world
      (opened.1.map fun answer => some ⟨kind, answer.1, answer.2⟩, opened.2)

/-! ## Opening the runtime -/

/-- The loop over the further devices: each is registered and would be kept. -/
def openDevices : List DeviceSpec → BridgeRuntime World → List AuxController →
    Except String (BridgeRuntime World × List AuxController)
  | [], bridge, auxControllers => .ok (bridge, auxControllers)
  | spec :: specs, bridge, auxControllers =>
      let connected := bridge.call (connectController host spec.kind spec.serial)
      match connected.1 with
      | .error error => .error error
      | .ok none => .error ("device " ++ spec.kind.asStr ++ " did not produce a controller")
      | .ok (some device) =>
          let slots := spec.taskSlots.getD (Device.taskSlotCount device)
          let registered :=
            if 0 < slots then
              { connected.2 with
                taskBoard :=
                  connected.2.taskBoard.setDevice order device.deviceId slots true }
            else connected.2
          openDevices specs registered (auxControllers ++ [⟨device.deviceId, device, slots⟩])

/-- `replay_primary_controller_state`. -/
def replayPrimary (bridge : BridgeRuntime World) : Except String Unit × BridgeRuntime World :=
  (bridge.autoSelect host.toOutside order).renderPrimary host.toOutside order

/-- The bridge with its primary controller, before the further devices. -/
def openPrimary (options : Options) (link : SerialLink) (controller : Option Device)
    (world : World) (now : Nat) : BridgeRuntime World :=
  let taskDeviceId := (controller.map Device.deviceId).getD options.controller.asStr
  let taskSlotCount := (controller.map fun device =>
    (options.devices.head?.bind (·.taskSlots)).getD (Device.taskSlotCount device)).getD 0
  { BridgeRuntime.opened world now with
    hasSerial := link.hasSerial
    firmware := link.firmware
    port := link.port
    sequence := link.sequence
    controller := controller
    controllerChoice := options.controller
    controllerSerial := options.controllerSerial
    taskBoard :=
      if 0 < taskSlotCount then
        Tasks.TaskBoard.setDevice order default taskDeviceId taskSlotCount true
      else default
    taskDeviceId := taskDeviceId
    taskSlotCount := taskSlotCount }

/-- `open_runtime`: the list of the further devices it has collected is dropped, and the
bridge starts with an empty one. -/
def openRuntime (options : Options) (link : SerialLink) (now : Nat) (world : World) :
    Except String (BridgeRuntime World) :=
  let connected := connectController host options.controller options.controllerSerial world
  match connected.1 with
  | .error error => .error error
  | .ok controller =>
      match openDevices host order options.devices.tail
        (openPrimary order options link controller connected.2 now) [] with
      | .error error => .error error
      | .ok (bridge, _) =>
          let replayed := replayPrimary host order bridge
          match replayed.1 with
          | .error error => .error error
          | .ok () => .ok replayed.2

/-- `replace_runtime`, for the serial port it has opened. -/
def replaceRuntime (bridge : BridgeRuntime World) (link : SerialLink) : BridgeRuntime World :=
  { bridge with
    hasSerial := link.hasSerial
    firmware := link.firmware
    port := link.port
    sequence := link.sequence }

/-! ## Reconnecting the controller -/

/-- How long a reconnected controller is left alone, in milliseconds. -/
def reconnectPause : Nat := 5000

/-- A controller that has been connected again: its device is registered and its state is
replayed; one that fails to take it is detached. -/
def installController (bridge : BridgeRuntime World) (device : Device) : BridgeRuntime World :=
  let installed := { bridge with controller := some device }
  let registered :=
    if installed.taskMode then
      { installed with
        taskBoard := installed.taskBoard.setDevice order installed.taskDeviceId
          installed.taskSlotCount true }
    else installed
  let replayed := replayPrimary host order registered
  match replayed.1 with
  | .error _ => replayed.2.detachController host.toOutside
  | .ok () =>
      let refreshed :=
        if replayed.2.taskMode then replayed.2.refresh host.toOutside order else replayed.2
      let asked := refreshed.call host.instant
      { asked.2 with
        controllerRetryDelay := Bridge.controllerRetryInitialDelay
        controllerRetryAt := asked.1 + reconnectPause }

/-- `reconnect_controller_if_due`. -/
def reconnectControllerIfDue (bridge : BridgeRuntime World) : BridgeRuntime World :=
  if bridge.controller.isSome || !bridge.controllerChoice.isPhysical then bridge
  else
    let asked := bridge.call host.instant
    if asked.1 < asked.2.controllerRetryAt then asked.2
    else
      let connected :=
        asked.2.call (connectController host asked.2.controllerChoice asked.2.controllerSerial)
      match connected.1 with
      | .error _ => connected.2.scheduleControllerRetry host.toOutside
      | .ok none => connected.2
      | .ok (some device) => installController host order connected.2 device

/-! ## Owners of the slots -/

/-- `AGENTS`. -/
def agents : List AgentId := [.codex, .claude, .zCode, .hermes]

/-- Give a range of slots to an agent. -/
def fillOwners (start stop : Nat) (agent : AgentId) (owners : List (Option AgentId)) :
    List (Option AgentId) :=
  owners.mapIdx fun slot owner => if start ≤ slot ∧ slot < stop then some agent else owner

/-- Each active agent gets its share of the slots, the last one what is left. -/
def splitOwners (slotCount : Nat) (active : List AgentId) (owners : List (Option AgentId)) :
    List (Option AgentId) :=
  let split := slotCount / active.length
  active.zipIdx.foldl (fun owners entry =>
    let stop := if entry.2 + 1 = active.length then slotCount else (entry.2 + 1) * split
    fillOwners (entry.2 * split) stop entry.1 owners) owners

/-- The owners the agents alone give. -/
def automaticOwners (slotCount : Nat) (active : AgentId → Bool) : List (Option AgentId) :=
  let owners := List.replicate slotCount none
  if active .codex && active .zCode && active .hermes && !active .claude then
    let codex := [0, 1].foldl (fun owners slot => owners.set slot (some .codex)) owners
    let hermes := [2, 5].foldl (fun owners slot => owners.set slot (some .hermes)) codex
    [3, 4].foldl (fun owners slot => owners.set slot (some .zCode)) hermes
  else
    match agents.filter active with
    | [] => owners
    | [agent] => fillOwners 0 slotCount agent owners
    | several => splitOwners slotCount several owners

/-- `task_slot_owners`. -/
def taskSlotOwners (slotCount : Nat) (active : AgentId → Bool)
    (overrides : Option (List (Nat × AgentId))) : List (Option AgentId) :=
  (overrides.getD []).foldl (fun owners entry => owners.set entry.1 (some entry.2))
    (automaticOwners slotCount active)

/-- `task_slots_for_agent`. -/
def taskSlotsForAgent (slotCount : Nat) (active : AgentId → Bool)
    (overrides : Option (List (Nat × AgentId))) (agent : AgentId) : Nat :=
  ((taskSlotOwners slotCount active overrides).reduceOption.filter (· == agent)).length

/-- The number of threads a poll of the Codex database asks for. -/
def codexSlots (partition : Routing.Partition) : Nat := (partition.slotsFor .codex).length

/-- `primary_slot_overrides`. -/
def primarySlotOverrides (bridge : BridgeRuntime World) : Option (List (Nat × AgentId)) :=
  ((bridge.controller.filter fun device => device.deviceId == bridge.taskDeviceId).or
    ((bridge.auxControllers.find? fun aux => aux.deviceId == bridge.taskDeviceId).map
      (·.device))).bind fun device => host.slotAgentOverrides device bridge.world

/-- Give the slots of the task device to the active agents. -/
def applyOwners (active : AgentId → Bool) (bridge : BridgeRuntime World) : BridgeRuntime World :=
  { bridge with
    taskBoard := bridge.taskBoard.setSlotOwners order bridge.taskDeviceId
      (taskSlotOwners bridge.taskSlotCount active (primarySlotOverrides host bridge)) }

/-! ## Plugin sessions -/

/-- `remove_plugin_session`: the device of a plugin session and the other mappings. -/
def removePluginSession (session : Nat) (pluginSessions : List (Nat × String)) :
    Option (String × List (Nat × String)) :=
  (pluginSessions.find? fun entry => entry.1 == session).map fun entry =>
    (entry.2, pluginSessions.eraseP fun entry => entry.1 == session)

/-- `detach_plugin_controller`: a plugin that is the primary controller leaves the task device
with it; otherwise the device is unregistered only if an auxiliary controller of its id is
there to be removed. -/
def detachPluginController (deviceId : String) (bridge : BridgeRuntime World) :
    BridgeRuntime World :=
  if bridge.taskDeviceId = deviceId ∧ bridge.controller.any (·.kind == .streamDeckPlugin) then
    let closed := match bridge.controller with
      | none => bridge
      | some device => { bridge with controller := none }.tell (host.shutdown device)
    { closed with
      taskBoard := (closed.taskBoard.setDevice order deviceId 0 false).setSlotOwners order
        "none" []
      taskDeviceId := "none"
      taskSlotCount := 0 }
  else
    let removed := bridge.auxControllers.filter (·.deviceId == deviceId)
    let closed := removed.foldl (fun bridge aux => bridge.tell (host.shutdown aux.device))
      { bridge with auxControllers := bridge.auxControllers.filter (·.deviceId != deviceId) }
    if removed.isEmpty then closed
    else
      let unregistered :=
        { closed with taskBoard := closed.taskBoard.setDevice order deviceId 0 false }
      if unregistered.taskDeviceId = deviceId then
        { unregistered with
          taskDeviceId := "none"
          taskSlotCount := 0
          taskBoard := unregistered.taskBoard.setSlotOwners order "none" [] }
      else unregistered

/-- A plugin hello finds no primary controller and no task device. -/
def becomesPrimary (bridge : BridgeRuntime World) : Bool :=
  bridge.controller.isNone && bridge.taskDeviceId == "none"

/-- Install the controller of a plugin: as the primary one when there is none, else as an
auxiliary one. -/
def installPlugin (session : Nat) (instanceId : String) (slots : Nat)
    (bridge : BridgeRuntime World) : BridgeRuntime World :=
  let deviceId := pluginId instanceId
  let attached := { bridge with world := host.attachPlugin session instanceId slots bridge.world }
  if becomesPrimary bridge then
    let promoted := { attached with
      taskDeviceId := deviceId
      taskSlotCount := slots
      controller := some (pluginDevice instanceId) }
    if 0 < slots then
      { promoted with
        taskBoard := (promoted.taskBoard.setDevice order deviceId slots true).setSlotOwners order
          deviceId ((List.range slots).map promoted.partition.ownerOf) }
    else promoted
  else
    let listed := { attached with
      auxControllers :=
        attached.auxControllers ++ [⟨deviceId, pluginDevice instanceId, slots⟩] }
    if 0 < slots then
      { listed with taskBoard := listed.taskBoard.setDevice order deviceId slots true }
    else listed

/-- The controller of an earlier session of the same plugin is detached. -/
def replacePlugin (deviceId : String) (pluginSessions : List (Nat × String))
    (bridge : BridgeRuntime World) : BridgeRuntime World :=
  if pluginSessions.any (·.2 == deviceId) then detachPluginController host order deviceId bridge
  else bridge

/-! ## Usage figures -/

/-- `refresh_wanted_usage`. -/
def refreshWantedUsage (sessionAgents : AgentId → Bool) (pluginConnected : Bool)
    (bridge : BridgeRuntime World) : Bool × BridgeRuntime World :=
  let codexWanted := bridge.usageAgent == .codex || sessionAgents .codex || pluginConnected
  let zcodeWanted := bridge.usageAgent == .zCode || sessionAgents .zCode || pluginConnected
  let codex := if codexWanted then bridge.requestUsageRefresh host.toOutside .codex else bridge
  let zcode := if zcodeWanted then codex.requestUsageRefresh host.toOutside .zCode else codex
  (codexWanted || zcodeWanted, zcode)

/-- What follows a refresh of the usage figures. -/
def showUsage (bridge : BridgeRuntime World) : BridgeRuntime World :=
  if bridge.hasExplicitDisplayContext then bridge.patchDisplayContextUsage
  else bridge.autoDeriveDisplayContext host.toOutside order

/-! ## Codex messages -/

/-- `method` of a Codex message. -/
def codexMethod (message : Value) : Option String :=
  ((message.get? "m").or (message.get? "method")).bind Value.asStr

/-- The parameters of a Codex message. -/
def codexParameters (message : Value) : Option Value :=
  (message.get? "p").or (message.get? "params")

/-- `rpc_ack_response`. -/
def rpcAckResponse (message : Value) : Option Value :=
  if codexMethod message = some "v.oai.rgbcfg" ∨ codexMethod message = some "v.oai.thstatus" then
    (message.get? "id").map fun id => .object [("result", .bool true), ("id", id)]
  else none

/-- `ProcessError`. -/
inductive ProcessError where
  | controller (error : String)
  | protocol (error : String)
  | serial (error : String)

/-- Show a Codex status on the primary controller, fused with those of the other agents. -/
def showThreadStatus (bridge : BridgeRuntime World) (parameters : Value) :
    Except ProcessError Unit × BridgeRuntime World :=
  let merged := bridge.fusedLcd.mergeFromAgent .codex parameters bridge.partition
  let kept := { bridge with lastThreadStatus := some parameters, fusedLcd := merged.2 }
  match merged.1 with
  | .error error => (.error (.protocol error), kept)
  | .ok fused =>
      match kept.controller with
      | none => (.ok (), kept)
      | some device =>
          let shown := kept.call (host.applyThreadStatus device (.array fused))
          match shown.1 with
          | .ok () => (.ok (), shown.2)
          | .error error =>
              if parameters.asArray.isNone then (.error (.protocol error), shown.2)
              else (.error (.controller error), shown.2)

/-- Show an RGB configuration on the primary controller. -/
def showRgbConfig (bridge : BridgeRuntime World) (parameters : Value) :
    Except ProcessError Unit × BridgeRuntime World :=
  let kept := { bridge with lastRgbConfig := some parameters }
  match kept.controller with
  | none => (.ok (), kept)
  | some device =>
      let shown := kept.call (host.applyRgbConfig device parameters)
      match shown.1 with
      | .ok () => (.ok (), shown.2)
      | .error error =>
          if parameters.asObject.isNone then (.error (.protocol error), shown.2)
          else (.error (.controller error), shown.2)

/-- `process_codex_message`. -/
def processCodexMessage (bridge : BridgeRuntime World) (message : Value) :
    Except ProcessError Unit × BridgeRuntime World :=
  let shown := match codexMethod message, codexParameters message with
    | some "v.oai.thstatus", some parameters => showThreadStatus host bridge parameters
    | some "v.oai.rgbcfg", some parameters => showRgbConfig host bridge parameters
    | _, _ => (.ok (), bridge)
  match shown.1 with
  | .error error => (.error error, shown.2)
  | .ok () =>
      match rpcAckResponse message with
      | none => (.ok (), shown.2)
      | some response =>
          let written := shown.2.sendCodex host.toOutside response
          (written.1.mapError .serial, written.2)

end

end Daemon
end MicroEmu
