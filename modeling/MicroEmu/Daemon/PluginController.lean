import MicroEmu.Daemon.Plugins

/-!
# Plugin controllers

The controller that stands for a Stream Deck plugin, and the channels between it and the threads
of its session.  The reader thread puts every line of the plugin into the channel, the writer
thread takes what the controller sends.  `PluginWorld` is a world with these channels and the
controllers, over a rest that holds everything else; its `host` answers the calls of the daemon
for plugins and passes the others on.
-/

namespace MicroEmu
namespace Daemon

open Json (Value)
open Routing (AgentId)
open Bridge (Call ControllerKind Device DisplayContext FallibleCall Outside)
open Codex (CatalogAction PhysicalEvent UsageAgent)
open Std (ExtTreeMap)

/-! ## Events -/

/-- `Value::as_i64`. -/
def asI64 : Value → Option Int
  | .number (.posInt n) => if n.toNat < 2 ^ 63 then some n.toNat else none
  | .number (.negInt n) => some n.toInt
  | _ => none

/-- The `index` of an event, cut to a byte. -/
def eventIndex (message : Value) : Option Nat :=
  ((message.get? "index").bind Value.asU64).map (· % 2 ^ 8)

/-- The `pressed` flag of an event, true when it is left out. -/
def eventPressed (message : Value) : Bool :=
  ((message.get? "pressed").bind Value.asBool).getD true

/-- `event_task_id`. -/
def eventTaskId (message : Value) : Option (Option String) :=
  match message.get? "task_id" with
  | none => some none
  | some (.string taskId) =>
      if taskId ≠ "" ∧ Json.charCount taskId ≤ 160 then some (some taskId) else none
  | some _ => none

/-- The position of a Micro key. -/
def microKeyIndex : String → Option Nat
  | "AG00" => some 0
  | "AG01" => some 1
  | "AG02" => some 2
  | "AG03" => some 3
  | "AG04" => some 4
  | "AG05" => some 5
  | "ACT06" => some 6
  | "ACT07" => some 7
  | "ACT08" => some 8
  | _ => none

/-- The number of a gesture on a task key. -/
def gestureNumber : String → Option Nat
  | "short" => some 0
  | "long" => some 1
  | _ => none

/-- `parse_event`. -/
def parseEvent (message : Value) : Option PhysicalEvent :=
  match (message.get? "kind").bind Value.asStr with
  | some "button" => (eventIndex message).map fun index => .button index (eventPressed message)
  | some "task-button" => do
      let index ← eventIndex message
      let taskId ← eventTaskId message
      return .taskButton index (eventPressed message) taskId
  | some "task-toggle" => do
      let index ← eventIndex message
      let taskId ← eventTaskId message
      return .taskToggle index taskId
  | some "task-action" => do
      let index ← eventIndex message
      let gesture ← ((message.get? "gesture").bind Value.asStr).bind gestureNumber
      let taskId ← eventTaskId message
      return .taskAction index gesture taskId
  | some "micro-key" => do
      let index ← ((message.get? "key").bind Value.asStr).bind microKeyIndex
      return .microButton index (eventPressed message)
  | some "catalog-action" =>
      (((message.get? "action").bind Value.asStr).bind CatalogAction.parse).map .catalogAction
  | some "model-cycle" => some .modelCycle
  | some "usage-agent" =>
      (((message.get? "agent").bind Value.asStr).bind UsageAgent.parse).map .usageSelect
  | some "encoder-turn" => (eventIndex message).map fun index =>
      .encoderTurn index (max (-127) (min (((message.get? "delta").bind asI64).getD 1) 127))
  | some "encoder-button" =>
      (eventIndex message).map fun index => .encoderButton index (eventPressed message)
  | _ => none

/-! ## The controller -/

structure PluginController where
  /-- The session whose channels the controller holds. -/
  session : Nat
  taskSlots : Nat
  slotAgents : ExtTreeMap Nat AgentId
  disconnected : Bool
  lastTaskCards : Option Value
  lastThreadStatus : Option Value
  lastDisplayContext : Option Value
  lastRgbConfig : Option Value

namespace PluginController

/-- `PluginController::new`. -/
def new (session taskSlots : Nat) : PluginController where
  session := session
  taskSlots := min taskSlots maxPluginTaskSlots
  slotAgents := ∅
  disconnected := false
  lastTaskCards := none
  lastThreadStatus := none
  lastDisplayContext := none
  lastRgbConfig := none

/-- The agent a plugin names for a slot. -/
def slotAgent : String → Option AgentId
  | "codex" => some .codex
  | "zcode" => some .zCode
  | "hermes" => some .hermes
  | "claude" => some .claude
  | _ => none

/-- One entry of `slotAgents`: a foreign key, a slot past the last one or a foreign agent is
left out. -/
def addSlotAgent (taskSlots : Nat) (agents : ExtTreeMap Nat AgentId) (entry : String × Value) :
    ExtTreeMap Nat AgentId :=
  match Json.parseUnsigned 10 (2 ^ 64 - 1) entry.1 with
  | none => agents
  | some slot =>
      if taskSlots ≤ slot then agents
      else
        match entry.2.asStr.bind slotAgent with
        | none => agents
        | some agent => agents.insert slot agent

/-- The agents that a `capacity` message gives to the slots. -/
def slotAgentsOf (taskSlots : Nat) (map : List (String × Value)) : ExtTreeMap Nat AgentId :=
  (Value.sortedFields map).foldl (addSlotAgent taskSlots) ∅

/-- A `capacity` message. -/
def takeCapacity (message : Value) (controller : PluginController) : PluginController :=
  let taskSlots := match (message.get? "taskSlots").bind Value.asU64 with
    | none => controller.taskSlots
    | some slots => min slots maxPluginTaskSlots
  { controller with
    taskSlots := taskSlots
    slotAgents := match (message.get? "slotAgents").bind Value.asObject with
      | none => controller.slotAgents
      | some map => slotAgentsOf taskSlots map }

/-- `task_slot_agent_overrides`. -/
def overrides (controller : PluginController) : Option (List (Nat × AgentId)) :=
  if controller.slotAgents.isEmpty then none else some controller.slotAgents.toList

end PluginController

/-! ## Channels -/

/-- The channels of a plugin session. -/
structure Channel where
  /-- Everything the reader thread has put in, oldest first. -/
  lines : List Value
  /-- How many of the lines the controller has taken. -/
  received : Nat
  /-- The reader thread has ended. -/
  closed : Bool
  /-- The writer thread has ended. -/
  writerClosed : Bool
  /-- What the controller has sent to the writer thread. -/
  written : List Value

/-- A session that has not begun. -/
def Channel.empty : Channel := ⟨[], 0, false, false, []⟩

structure PluginWorld (Rest : Type) where
  channels : Nat → Channel
  /-- The controller last made for an instance. -/
  controllers : String → Option PluginController
  rest : Rest

/-- The functions outside that a plugin controller calls besides those of the bridge. -/
structure Windows (Rest : Type) extends Outside Rest where
  /-- `zcode_window::request_new_task`. -/
  requestNewTask : Call Rest Unit
  /-- `hermes_window::start_new_session`. -/
  startNewSession : FallibleCall Rest Unit
  /-- Open the hardware of a controller. -/
  connect : ControllerKind → Option String → FallibleCall Rest (String × Option String)

/-- Windows that stand still: every call succeeds, and every controller can be opened. -/
def Windows.idle : Windows Unit where
  toOutside := Outside.idle
  requestNewTask _ := ((), ())
  startNewSession _ := (.ok (), ())
  connect kind serial _ := (.ok (kind.asStr, serial), ())

namespace PluginWorld

/-- Before the first session. -/
def initial : PluginWorld Unit := ⟨fun _ => .empty, fun _ => none, ()⟩

variable {Rest : Type} (windows : Windows Rest)

def setChannel (session : Nat) (channel : Channel) (world : PluginWorld Rest) :
    PluginWorld Rest :=
  { world with channels := Function.update world.channels session channel }

def setController (instanceId : String) (controller : PluginController)
    (world : PluginWorld Rest) : PluginWorld Rest :=
  { world with controllers := Function.update world.controllers instanceId (some controller) }

/-- Put a line into the channel of the writer thread. -/
def write (session : Nat) (line : Value) (world : PluginWorld Rest) : PluginWorld Rest :=
  world.setChannel session { world.channels session with
    written := (world.channels session).written ++ [line] }

/-- A call that concerns the rest only. -/
def onRest {α : Type} (ask : Call Rest α) : Call (PluginWorld Rest) α := fun world =>
  ((ask world.rest).1, { world with rest := (ask world.rest).2 })

/-- `PluginController::send`. -/
def send (controller : PluginController) (message : Value) :
    FallibleCall (PluginWorld Rest) Unit := fun world =>
  if controller.disconnected then (.error "plugin controller disconnected", world)
  else if (world.channels controller.session).writerClosed then
    (.error "plugin session writer closed", world)
  else (.ok (), world.write controller.session message)

/-- Answer a message; a controller that cannot is disconnected. -/
def reply (controller : PluginController) (message : Value) (world : PluginWorld Rest) :
    PluginController × PluginWorld Rest :=
  let sent := send controller message world
  match sent.1 with
  | .ok () => (controller, sent.2)
  | .error _ => ({ controller with disconnected := true }, sent.2)

/-- The application in front takes a request for a new task. -/
def startNewTask : Call (PluginWorld Rest) Bool := fun world =>
  let zcode := onRest (windows.isForeground .zCode) world
  if zcode.1 = .ok true then (true, (onRest windows.requestNewTask zcode.2).2)
  else
    let hermes := onRest (windows.isForeground .hermes) zcode.2
    if hermes.1 = .ok true then
      let started := onRest windows.startNewSession hermes.2
      (started.1 = .ok (), started.2)
    else (false, hermes.2)

/-- `PluginController::handle_inbound`. -/
def handleInbound (message : Value) (controller : PluginController) (world : PluginWorld Rest) :
    Option PhysicalEvent × PluginController × PluginWorld Rest :=
  match ((message.get? "type").bind Value.asStr).getD "" with
  | "event" => (parseEvent message, controller, world)
  | "capacity" => (none, controller.takeCapacity message, world)
  | "ping" =>
      (none, reply controller (.object [("type", .string "pong"),
        ("timestamp", (message.get? "timestamp").getD .null)]) world)
  | "new-task" =>
      let handled := startNewTask windows world
      (none, reply controller (.object [("type", .string "new-task-result"),
        ("handled", .bool handled.1)]) handled.2)
  | _ => (none, controller, world)

/-- Handle the messages that wait in the channel. -/
def receive : List Value → PluginController → PluginWorld Rest →
    List PhysicalEvent × PluginController × PluginWorld Rest
  | [], controller, world => ([], controller, world)
  | message :: messages, controller, world =>
      let handled := handleInbound windows message controller world
      let later := receive messages handled.2.1 handled.2.2
      (handled.1.toList ++ later.1, later.2)

/-- `PluginController::poll`: all messages are taken before the end of the session is seen. -/
def poll (instanceId : String) : FallibleCall (PluginWorld Rest) (List PhysicalEvent) :=
  fun world =>
    match world.controllers instanceId with
    | none => (.ok [], world)
    | some controller =>
        let channel := world.channels controller.session
        let handled := receive windows (channel.lines.drop channel.received) controller world
        let taken := handled.2.2.setChannel controller.session
          { handled.2.2.channels controller.session with received := channel.lines.length }
        if channel.closed then
          (.error "plugin session closed",
            taken.setController instanceId { handled.2.1 with disconnected := true })
        else (.ok handled.1, taken.setController instanceId handled.2.1)

/-- Send a state to be shown, unless it is the one shown last. -/
def applyRender (render : String) (last : PluginController → Option Value)
    (keep : Value → PluginController → PluginController) (instanceId : String) (value : Value) :
    FallibleCall (PluginWorld Rest) Unit := fun world =>
  match world.controllers instanceId with
  | none => (.ok (), world)
  | some controller =>
      if (last controller).any (·.same value) then (.ok (), world)
      else
        let sent := send controller (.object [("type", .string "render"),
          ("render", .string render), (render, value)]) world
        match sent.1 with
        | .error error => (.error error, sent.2)
        | .ok () => (.ok (), sent.2.setController instanceId (keep value controller))

def applyTaskCards (instanceId : String) (cards : List Value) :
    FallibleCall (PluginWorld Rest) Unit :=
  applyRender "taskCards" (·.lastTaskCards)
    (fun value controller => { controller with lastTaskCards := some value }) instanceId
    (.array cards)

def applyThreadStatus (instanceId : String) (parameters : Value) :
    FallibleCall (PluginWorld Rest) Unit :=
  applyRender "threadStatus" (·.lastThreadStatus)
    (fun value controller => { controller with lastThreadStatus := some value }) instanceId
    parameters

def applyRgbConfig (instanceId : String) (parameters : Value) :
    FallibleCall (PluginWorld Rest) Unit :=
  applyRender "rgbConfig" (·.lastRgbConfig)
    (fun value controller => { controller with lastRgbConfig := some value }) instanceId
    parameters

def applyDisplayContext (instanceId : String) (context : DisplayContext) :
    FallibleCall (PluginWorld Rest) Unit :=
  applyRender "displayContext" (·.lastDisplayContext)
    (fun value controller => { controller with lastDisplayContext := some value }) instanceId
    context.toValue

/-- `PluginController::shutdown`. -/
def shutdown (instanceId : String) : Call (PluginWorld Rest) Unit := fun world =>
  match world.controllers instanceId with
  | none => ((), world)
  | some controller =>
      let closed := { controller with disconnected := true }
      let told :=
        if (world.channels controller.session).writerClosed then world
        else world.write controller.session (.object [("type", .string "goodbye")])
      ((), told.setController instanceId closed)

/-- The channels of the session go to a new controller, which has taken nothing yet. -/
def attach (session : Nat) (instanceId : String) (taskSlots : Nat) (world : PluginWorld Rest) :
    PluginWorld Rest :=
  (world.setChannel session { world.channels session with received := 0 }).setController
    instanceId (.new session taskSlots)

/-! ## The host -/

/-- What a plugin does for its device, and the hardware for any other. -/
def byKind {α : Type} (device : Device) (plugin : String → Call (PluginWorld Rest) α)
    (hardware : Call Rest α) : Call (PluginWorld Rest) α :=
  match device.kind with
  | .streamDeckPlugin => plugin (device.serial.getD "")
  | _ => onRest hardware

def host : Host (PluginWorld Rest) where
  toVec := windows.toVec
  toStringPretty := windows.toStringPretty
  systemTime := onRest windows.systemTime
  instant := onRest windows.instant
  writeFrame number frame := onRest (windows.writeFrame number frame)
  poll device := byKind device (poll windows) (windows.poll device)
  applyTaskCards device cards :=
    byKind device (applyTaskCards · cards) (windows.applyTaskCards device cards)
  applyThreadStatus device parameters :=
    byKind device (applyThreadStatus · parameters) (windows.applyThreadStatus device parameters)
  applyDisplayContext device context :=
    byKind device (applyDisplayContext · context) (windows.applyDisplayContext device context)
  applyRgbConfig device parameters :=
    byKind device (applyRgbConfig · parameters) (windows.applyRgbConfig device parameters)
  shutdown device := byKind device shutdown (windows.shutdown device)
  isForeground agent := onRest (windows.isForeground agent)
  minimize agent := onRest (windows.minimize agent)
  showAndFocus agent := onRest (windows.showAndFocus agent)
  microphoneActive agent := onRest (windows.microphoneActive agent)
  setMicrophone agent pressed := onRest (windows.setMicrophone agent pressed)
  requestSessionSelection agent arguments :=
    onRest (windows.requestSessionSelection agent arguments)
  searchTasks := onRest windows.searchTasks
  toggleTerminal := onRest windows.toggleTerminal
  cycleModel := onRest windows.cycleModel
  readCodexConfig := onRest windows.readCodexConfig
  readLatestCodexSessionCwd := onRest windows.readLatestCodexSessionCwd
  fetchUsage agent := onRest (windows.fetchUsage agent)
  connect kind serial := onRest (windows.connect kind serial)
  attachPlugin := attach
  slotAgentOverrides device world :=
    match device.kind with
    | .streamDeckPlugin =>
        (world.controllers (device.serial.getD "")).bind PluginController.overrides
    | _ => none

end PluginWorld

end Daemon
end MicroEmu
