import MicroEmu.Daemon.Loop
import MicroEmu.Daemon.Plugins

/-!
# The main loop

The state of `run_daemon` and what each part of one round of its loop does to it.  The parts
are the inputs of `LoopState.step`; what a part reads outside (messages, snapshots, probes,
clocks) comes with it, and so does the time between two parts, in which the world moves on its
own.  The rounds of the daemon are some of the lists of inputs, so what holds along every list
holds along its rounds.
-/

namespace MicroEmu
namespace Daemon

open Json (Value)
open Routing (AgentId)
open Bridge (BridgeRuntime UsageCache)
open Tasks (WalkOrder)

/-- A message to the main loop. -/
inductive LoopMessage where
  | session (message : SessionMessage)
  /-- `SessionMessage::ControllerHello`; the channels are those of the session. -/
  | controllerHello (session : Nat) (instanceId : String) (taskSlots : Nat)

/-- The connection a message comes from. -/
def LoopMessage.sender : LoopMessage → Nat
  | .session message => message.session
  | .controllerHello connection _ _ => connection

structure LoopState (World : Type) where
  daemon : DaemonState World
  /-- The device of each plugin session. -/
  pluginSessions : List (Nat × String)
  /-- The agents with a live session. -/
  sessionAgents : AgentId → Bool
  codexHardwareActive : Bool
  zcodeDesktopActive : Bool
  hermesDesktopActive : Bool
  claudeDesktopActive : Bool
  codexSnapshotAvailable : Bool
  /-- The id of the next connection. -/
  nextId : Nat
  /-- The ids of the connections accepted so far, oldest first. -/
  accepted : List Nat
  /-- An error has ended the daemon. -/
  ended : Bool

/-- A part of one round of the loop, or something that happens beside it. -/
inductive LoopInput (World : Type) where
  /-- The acceptor takes a connection. -/
  | accept
  /-- The world moves on its own. -/
  | outside (world : World)
  /-- `poll_ready` has stored new usage figures. -/
  | usageReady (order : WalkOrder) (cache : UsageCache)
  | message (order : WalkOrder) (message : LoopMessage)
  /-- A Codex message has come over the serial port. -/
  | codexMessage (order : WalkOrder) (message : Value)
  /-- The serial port has been opened again, or given up. -/
  | replaceRuntime (link : SerialLink)
  /-- The Codex database has been read. -/
  | codexSnapshot (order : WalkOrder) (snapshot : Value)
  | reconnect (order : WalkOrder)
  | expire (order : WalkOrder)
  | refresh (order : WalkOrder)
  /-- `poll_controller` and the refresh of the owners behind it. -/
  | pollController (order : WalkOrder)
  | routeTaskEvents
  /-- The cards of a Codex HID device that has gone. -/
  | clearHid (order : WalkOrder)
  /-- The automatic feed of an agent; the snapshot is there when it is due. -/
  | feed (order : WalkOrder) (agent : AgentId) (snapshot : Option Value)
  /-- The probes of the hardware and of the desktop applications. -/
  | probe (codexHardware zcodeDesktop hermesDesktop claudeDesktop : Bool)
  | repartition (order : WalkOrder)
  | resolvePolls (now : Nat)
  | usageTick (order : WalkOrder)

namespace LoopState

variable {World : Type} (host : Host World) (state : LoopState World)

def bridge : BridgeRuntime World := state.daemon.bridge

/-- The state after a change of the bridge. -/
def withBridge (bridge : BridgeRuntime World) : LoopState World :=
  { state with daemon := state.daemon.withBridge bridge }

/-- `effective_active_set`. -/
def effectiveActiveSet : AgentId → Bool
  | .codex => state.sessionAgents .codex || state.codexHardwareActive
  | .zCode => state.sessionAgents .zCode || state.zcodeDesktopActive
  | .hermes => state.sessionAgents .hermes || state.hermesDesktopActive
  | .claude => state.sessionAgents .claude || state.claudeDesktopActive

/-! ## Start -/

/-- The state before the first round: task mode is on, the preferences and the Codex database
have been read, and the slots of the task device have owners. -/
def started (order : WalkOrder) (bridge : BridgeRuntime World) (preferences : Option Value)
    (snapshot : Option Value) (zcodeDesktop hermesDesktop claudeDesktop : Bool) :
    LoopState World :=
  let restored := match preferences with
    | none => bridge.taskBoard
    | some value => bridge.taskBoard.restoreSlotPreferences value
  let moded := { bridge with taskMode := true, taskBoard := restored }
  let published := match snapshot with
    | none => (moded, false)
    | some value =>
        let asked := moded.call host.systemTime
        let outcome := asked.2.taskBoard.publishCodexSnapshot order value asked.1
        match outcome.1 with
        | .ok _ => ({ asked.2 with taskBoard := outcome.2, hasExplicitTaskState := true }, true)
        | .error _ => ({ asked.2 with taskBoard := outcome.2 }, false)
  let state : LoopState World := {
    daemon := .started published.1
    pluginSessions := []
    sessionAgents := fun _ => false
    codexHardwareActive := false
    zcodeDesktopActive := zcodeDesktop
    hermesDesktopActive := hermesDesktop
    claudeDesktopActive := claudeDesktop
    codexSnapshotAvailable := published.2
    nextId := 1
    accepted := []
    ended := false }
  state.withBridge (applyOwners host order state.effectiveActiveSet
    { state.bridge with partition := .compute state.effectiveActiveSet })

/-! ## Messages -/

/-- `SessionMessage::ControllerHello`. -/
def controllerHello (order : WalkOrder) (session : Nat) (instanceId : String) (taskSlots : Nat) :
    LoopState World :=
  let deviceId := pluginId instanceId
  let slots := min taskSlots maxPluginTaskSlots
  let installed := installPlugin host order session instanceId slots
    (replacePlugin host order deviceId state.pluginSessions state.bridge)
  let wanted := refreshWantedUsage host state.sessionAgents true installed
  let shown := if wanted.1 then showUsage host order wanted.2 else wanted.2
  { state.withBridge (shown.refresh host.toOutside order) with
    pluginSessions :=
      (state.pluginSessions.filter fun entry => entry.2 != deviceId) ++ [(session, deviceId)] }

/-- `SessionMessage::Hello`. -/
def hello (order : WalkOrder) (session : Nat) (info : HelloInfo) : LoopState World :=
  { state with
    daemon := state.daemon.hello host.toOutside order session info
    sessionAgents := fun agent => agent == info.agent || state.sessionAgents agent }

/-- `SessionMessage::Disconnected` and `SessionMessage::Error`: a plugin session leaves its
device, any other its cards. -/
def endSession (order : WalkOrder) (session : Nat) : LoopState World :=
  match removePluginSession session state.pluginSessions with
  | some (deviceId, others) =>
      { state.withBridge ((detachPluginController host order deviceId state.bridge).refresh
          host.toOutside order) with
        pluginSessions := others }
  | none =>
      let daemon := state.daemon.endSession host.toOutside order session
      let sessionAgents : AgentId → Bool := match state.daemon.sessionAgent session with
        | none => state.sessionAgents
        | some agent =>
            if (daemon.sessionsOf agent).isEmpty then
              fun other => other != agent && state.sessionAgents other
            else state.sessionAgents
      { state with daemon := daemon, sessionAgents := sessionAgents }

def handleMessage (order : WalkOrder) : LoopMessage → LoopState World
  | .controllerHello session instanceId taskSlots =>
      state.controllerHello host order session instanceId taskSlots
  | .session (.connected session) => { state with daemon := state.daemon.connect session }
  | .session (.request session request) =>
      { state with daemon := state.daemon.handleRequest host.toOutside order session request }
  | .session (.hello session info) => state.hello host order session info
  | .session (.disconnected session) => state.endSession host order session
  | .session (.error session) => state.endSession host order session

/-! ## The serial port and the Codex database -/

/-- A status frame becomes cards while the Codex database cannot be read. -/
def publishHidStatus (order : WalkOrder) (parameters : Value) : BridgeRuntime World :=
  let explicit := { state.bridge with hasExplicitTaskState := true }
  let published :=
    if state.codexSnapshotAvailable then explicit
    else
      let asked := explicit.call host.systemTime
      { asked.2 with
        taskBoard := (asked.2.taskBoard.publishCodexHidStatus order parameters asked.1).2 }
  (published.autoDeriveDisplayContext host.toOutside order).refresh host.toOutside order

/-- One message of the serial loop. -/
def codexMessage (order : WalkOrder) (message : Value) : LoopState World :=
  let published := match codexMethod message, codexParameters message with
    | some "v.oai.thstatus", some parameters =>
        if state.bridge.taskMode then state.publishHidStatus host order parameters
        else state.bridge
    | _, _ => state.bridge
  let processed := processCodexMessage host published message
  match processed.1 with
  | .error (.controller _) => state.withBridge (processed.2.detachController host.toOutside)
  | _ => state.withBridge processed.2

/-- A snapshot of the Codex database. -/
def codexSnapshot (order : WalkOrder) (snapshot : Value) : LoopState World :=
  let asked := state.bridge.call host.systemTime
  let published := asked.2.taskBoard.publishCodexSnapshot order snapshot asked.1
  match published.1 with
  | .ok _ =>
      { state.withBridge
          { asked.2 with taskBoard := published.2, hasExplicitTaskState := true } with
        codexSnapshotAvailable := true }
  | .error _ => state.withBridge { asked.2 with taskBoard := published.2 }

/-! ## The controllers -/

/-- `poll_controller`, and the owners of the slots; an error of the poll ends the daemon. -/
def pollController (order : WalkOrder) : LoopState World :=
  let polled := state.bridge.pollController host.toOutside order
  match polled.1 with
  | .error _ => { state.withBridge polled.2 with ended := true }
  | .ok () => state.withBridge (applyOwners host order state.effectiveActiveSet polled.2)

/-- A debounced change of the active agents. -/
def repartition (order : WalkOrder) : LoopState World :=
  let active := state.effectiveActiveSet
  let partition := Routing.Partition.compute active
  let refreshed := (applyOwners host order active
    { state.bridge with partition := partition }).refresh host.toOutside order
  let asked := refreshed.call host.systemTime
  let agents := agents.filter active
  state.withBridge { asked.2 with
    routing := agents.foldl (fun routing agent =>
      routing.pushPartitionEvent agent partition agents asked.1) asked.2.routing }

/-! ## The feeds -/

/-- The cards of a Codex HID device go when the serial port has been away for a while. -/
def clearHid (order : WalkOrder) : LoopState World :=
  if !state.bridge.hasSerial && !state.codexSnapshotAvailable &&
      state.bridge.taskBoard.hasSessionTasks 0 then
    let cleared := { state.bridge with
      taskBoard := state.bridge.taskBoard.clearSession order 0 }
    let settled :=
      if cleared.taskBoard.hasTasks then cleared
      else { cleared with hasExplicitTaskState := false }
    state.withBridge (settled.refresh host.toOutside order)
  else state

/-- `has_agent_tasks_except`. -/
def hasAgentTasksExcept (board : Tasks.TaskBoard) (agent : AgentId) (session : Nat) : Bool :=
  board.tasks.toList.any fun entry =>
    entry.2.ownerAgent == agent && entry.2.ownerSession != session

/-- An automatic feed: its cards are cleared while nobody of its agent is there or while a
client publishes for the agent, else its snapshot is published. -/
def feedOwned (order : WalkOrder) (agent : AgentId) (owner : Nat) (desktopActive : Bool)
    (snapshot : Option Value) : LoopState World :=
  let active := !(state.daemon.sessionsOf agent).isEmpty || desktopActive
  if !active || hasAgentTasksExcept state.bridge.taskBoard agent owner then
    if state.bridge.taskBoard.hasSessionTasks owner then
      state.withBridge (({ state.bridge with
        taskBoard := state.bridge.taskBoard.clearSession order owner } :
          BridgeRuntime World).refresh host.toOutside order)
    else state
  else
    match snapshot with
    | none => state
    | some snapshot =>
        let asked := state.bridge.call host.systemTime
        let published := asked.2.taskBoard.publishTasks order owner agent snapshot asked.1
        match published.1 with
        | .error _ => state.withBridge { asked.2 with taskBoard := published.2 }
        | .ok _ => state.withBridge (({ asked.2 with
            taskBoard := published.2
            hasExplicitTaskState := true } : BridgeRuntime World).refresh host.toOutside order)

def feed (order : WalkOrder) (snapshot : Option Value) : AgentId → LoopState World
  | .zCode => state.feedOwned host order .zCode Bridge.zcodePollSession
      state.zcodeDesktopActive snapshot
  | .hermes => state.feedOwned host order .hermes Bridge.hermesPollSession
      state.hermesDesktopActive snapshot
  | .claude => state.feedOwned host order .claude Bridge.claudePollSession
      state.claudeDesktopActive snapshot
  | .codex => state

/-! ## The loop -/

/-- The usage figures have changed, or are shown again. -/
def showUsage (order : WalkOrder) : LoopState World :=
  let wanted := refreshWantedUsage host state.sessionAgents (!state.pluginSessions.isEmpty)
    state.bridge
  if wanted.1 then
    state.withBridge ((Daemon.showUsage host order wanted.2).refresh host.toOutside order)
  else state.withBridge wanted.2

/-- One part of a round. -/
def act (state : LoopState World) : LoopInput World → LoopState World
  | .accept =>
      { state with
        nextId := (state.nextId + 1) % 2 ^ 64
        accepted := state.accepted ++ [state.nextId] }
  | .outside world => state.withBridge { state.bridge with world := world }
  | .usageReady order cache =>
      state.withBridge ((({ state.bridge with usageCache := cache } :
        BridgeRuntime World).patchDisplayContextUsage).refresh host.toOutside order)
  | .message order message =>
      if message.sender ∈ state.accepted then state.handleMessage host order message else state
  | .codexMessage order message => state.codexMessage host order message
  | .replaceRuntime link => state.withBridge (Daemon.replaceRuntime state.bridge link)
  | .codexSnapshot order snapshot => state.codexSnapshot host order snapshot
  | .reconnect order => state.withBridge (reconnectControllerIfDue host order state.bridge)
  | .expire order =>
      let asked := state.bridge.call host.systemTime
      state.withBridge { asked.2 with taskBoard := asked.2.taskBoard.expire order asked.1 }
  | .refresh order => state.withBridge (state.bridge.refresh host.toOutside order)
  | .pollController order => state.pollController host order
  | .routeTaskEvents => { state with daemon := state.daemon.routeTaskEvents }
  | .clearHid order => state.clearHid host order
  | .feed order agent snapshot => state.feed host order snapshot agent
  | .probe codexHardware zcodeDesktop hermesDesktop claudeDesktop =>
      { state with
        codexHardwareActive := codexHardware
        zcodeDesktopActive := zcodeDesktop
        hermesDesktopActive := hermesDesktop
        claudeDesktopActive := claudeDesktop }
  | .repartition order => state.repartition host order
  | .resolvePolls now =>
      { state with daemon := state.daemon.resolvePendingPolls host.toStringPretty now }
  | .usageTick order => state.showUsage host order

/-- A daemon that has ended does nothing any more. -/
def step (state : LoopState World) (input : LoopInput World) : LoopState World :=
  if state.ended then state else state.act host input

/-- The state after a list of inputs. -/
def run (inputs : List (LoopInput World)) (state : LoopState World) : LoopState World :=
  Library.runFrom (step host) inputs state

end LoopState
end Daemon
end MicroEmu
