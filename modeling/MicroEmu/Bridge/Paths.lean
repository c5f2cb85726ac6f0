import MicroEmu.Bridge.Frame

/-!
# The two event loops agree

The events of the primary controller and those of an auxiliary one are served
by two separately written loops.  They agree event by event as long as three
things hold where they matter: no task toggle finds its task, the serial port
takes every HID message, and an empty task card is pressed only while the
primary controller is attached as the task device.
-/

namespace MicroEmu
namespace Bridge

open Json (Value)
open Routing (AgentId)
open Codex (CatalogAction PhysicalEvent UsageAgent)
open Tasks (TaskBoard TaskCard WalkOrder)

namespace BridgeRuntime

variable {World : Type} (out : Outside World) (order : WalkOrder)

/-! ## What the serial port answers -/

/-- What a write to the serial port depends on. -/
def portState (bridge : BridgeRuntime World) : Bool × Nat × World :=
  (bridge.hasSerial, bridge.sequence, bridge.world)

theorem writeReports_congr (reports : List (List UInt8)) {a b : BridgeRuntime World}
    (hsequence : a.sequence = b.sequence) (hworld : a.world = b.world) :
    (writeReports out reports a).1 = (writeReports out reports b).1 := by
  induction reports generalizing a b with
  | nil => rfl
  | cons report reports ih =>
      simp only [writeReports, call, hsequence, hworld]
      cases (out.writeFrame b.sequence report b.world).1 with
      | error error => rfl
      | ok written => exact ih rfl rfl

theorem sendCodex_congr {a b : BridgeRuntime World} (h : a.portState = b.portState)
    (message : Value) : (a.sendCodex out message).1 = (b.sendCodex out message).1 := by
  simp only [portState, Prod.mk.injEq] at h
  obtain ⟨hserial, hsequence, hworld⟩ := h
  unfold sendCodex
  rw [hserial]
  cases b.hasSerial with
  | false => rfl
  | true =>
      cases Codex.frameJson out.toVec message with
      | error error => rfl
      | ok reports =>
          simp only [if_true]
          rw [writeReports_congr out reports hsequence hworld]
          cases (writeReports out reports b).1 <;> rfl

/-- The message an event becomes on the HID device: a position of another agent
than Codex has none. -/
def hidMessageOf (bridge : BridgeRuntime World) (event : PhysicalEvent) : Option Value :=
  let message := (bridge.radialState.event event).1
  match event with
  | .button index _ | .microButton index _ =>
      if (bridge.partition.ownerOf index).all (· == .codex) then message else none
  | _ => message

/-- The serial port takes the message of an event, if it has one. -/
def PortTakes (bridge : BridgeRuntime World) (event : PhysicalEvent) : Prop :=
  ∀ message, bridge.hidMessageOf event = some message →
    (bridge.sendCodex out message).1 = .ok ()

theorem sendRadial_ok {bridge : BridgeRuntime World} {event : PhysicalEvent}
    (h : ∀ message, (bridge.radialState.event event).1 = some message →
      (bridge.sendCodex out message).1 = .ok ()) :
    (bridge.sendRadial out event).1 = .ok () := by
  simp only [sendRadial]
  cases hmessage : (bridge.radialState.event event).1 with
  | none => rfl
  | some message =>
      simp only
      split
      · refine Eq.trans ?_ (h message hmessage)
        apply sendCodex_congr out
        rfl
      · rfl

theorem routePosition_ok {bridge : BridgeRuntime World} {event : PhysicalEvent}
    {index : Nat}
    (h : (bridge.partition.ownerOf index).all (· == .codex) = true →
      ∀ message, (bridge.radialState.event event).1 = some message →
        (bridge.sendCodex out message).1 = .ok ()) (nowMs : Nat) (pressed : Bool) :
    (bridge.routePosition out nowMs index pressed event).1 = .ok () := by
  unfold routePosition
  cases howner : bridge.partition.ownerOf index with
  | none => exact sendRadial_ok out (h (by simp [howner]))
  | some owner =>
      cases owner with
      | codex =>
          apply sendRadial_ok out
          intro message hmessage
          -- buffering the press changes nothing the port depends on
          have hradial : (bridge.radialState.event event).1 = some message := by
            rw [← hmessage]
            split <;> rfl
          refine Eq.trans ?_ (h (by simp [howner]) message hradial)
          apply sendCodex_congr out
          split <;> rfl
      | zCode => rfl
      | hermes => rfl
      | claude => rfl

/-- An event is routed without an error when the port takes its message. -/
theorem routeMicroEvent_ok {bridge : BridgeRuntime World} {event : PhysicalEvent}
    (h : bridge.PortTakes out event) (nowMs : Nat) :
    (bridge.routeMicroEvent out nowMs event).1 = .ok () := by
  cases event with
  | button index pressed =>
      apply routePosition_ok out
      intro howner message hmessage
      exact h message (by simp only [hidMessageOf, howner, if_true]; exact hmessage)
  | microButton index pressed =>
      apply routePosition_ok out
      intro howner message hmessage
      exact h message (by simp only [hidMessageOf, howner, if_true]; exact hmessage)
  | taskButton | taskToggle | taskAction | catalogAction | modelCycle | usageSelect |
    encoderTurn | encoderButton => exact sendRadial_ok out h

/-! ## One event -/

/-- A Micro position nobody owns and no message leaves for. -/
def SilentPosition (bridge : BridgeRuntime World) (index : Nat) : Prop :=
  bridge.partition.ownerOf index = none ∧ (bridge.hasSerial = false ∨ 8 < index)

/-- The two loops serve an event alike in this state. -/
def PathsMeet (bridge : BridgeRuntime World) : PhysicalEvent → Prop
  | .taskToggle index taskId =>
      bridge.cardInRange bridge.taskSlotCount index = true →
        bridge.resolveTaskTarget order bridge.taskDeviceId index taskId = none
  | .button index pressed =>
      if bridge.cardInRange bridge.taskSlotCount index then
        bridge.taskBoard.taskAt order bridge.taskDeviceId index = none →
          bridge.ownsTaskDevice = true ∨ bridge.SilentPosition index
      else bridge.PortTakes out (.button index pressed)
  | .microButton index pressed => bridge.PortTakes out (.microButton index pressed)
  | .encoderTurn index delta => bridge.PortTakes out (.encoderTurn index delta)
  | .encoderButton 2 pressed =>
      let dictated := bridge.routeDesktopDictation out pressed
      dictated.1 = false → dictated.2.PortTakes out (.encoderButton 2 pressed)
  | .encoderButton index pressed => bridge.PortTakes out (.encoderButton index pressed)
  | .taskButton _ _ _ => True
  | .taskAction _ _ _ => True
  | .catalogAction _ => True
  | .modelCycle => True
  | .usageSelect _ => True

theorem routeMicroEvent_eq {bridge : BridgeRuntime World} {event : PhysicalEvent}
    (h : bridge.PortTakes out event) (nowMs : Nat) :
    bridge.routeMicroEvent out nowMs event =
      (.ok (), (bridge.routeMicroEvent out nowMs event).2) :=
  Prod.ext (routeMicroEvent_ok out h nowMs) rfl

/-- A silent position swallows its event. -/
theorem routeMicroEvent_of_silent {bridge : BridgeRuntime World} {index : Nat}
    (h : bridge.SilentPosition index) (nowMs : Nat) (pressed : Bool) :
    bridge.routeMicroEvent out nowMs (.button index pressed) = (.ok (), bridge) := by
  obtain ⟨howner, hsilent⟩ := h
  simp only [routeMicroEvent, routePosition, howner, sendRadial, Codex.RadialState.event]
  rcases hsilent with hserial | hindex
  · split
    · rfl
    · rw [if_neg (by simp [hserial])]
  · have hmessage : Codex.RadialState.buttonMessage index pressed = none := by
      rw [Codex.RadialState.buttonMessage, if_neg (by omega), if_neg (by omega)]
    rw [hmessage]

/-- An unconsumed press leaves the bridge as it was. -/
theorem routeTaskButton_of_empty {bridge : BridgeRuntime World} {deviceId : String}
    {slotCount index : Nat}
    (h : bridge.cardInRange slotCount index = true →
      bridge.taskBoard.taskAt order deviceId index = none) (pressed : Bool) (nowMs : Nat) :
    bridge.routeTaskButton out order deviceId slotCount index pressed none nowMs =
      (false, bridge) := by
  unfold routeTaskButton
  split
  next hrange =>
    have hempty : bridge.resolveTaskTarget order deviceId index none = none := h hrange
    rw [hempty]
    rfl
  next => rfl

/-- The press of a card on a position is consumed. -/
theorem routeTaskButton_consumed {bridge : BridgeRuntime World} {deviceId : String}
    {slotCount index : Nat} {task : TaskCard}
    (hrange : bridge.cardInRange slotCount index = true)
    (htask : bridge.taskBoard.taskAt order deviceId index = some task) (pressed : Bool)
    (nowMs : Nat) :
    (bridge.routeTaskButton out order deviceId slotCount index pressed none nowMs).1 =
      true := by
  have hresolve : bridge.resolveTaskTarget order deviceId index none = some task := htask
  simp only [routeTaskButton, hrange, hresolve, if_true]

/-- Where the paths meet, the primary loop does what the auxiliary one does. -/
theorem pollEvent_eq {bridge : BridgeRuntime World} (hmode : bridge.taskMode = true)
    {event : PhysicalEvent} (h : bridge.PathsMeet out order event) (nowMs : Nat) :
    bridge.pollEvent out order nowMs event =
      (.ok (), bridge.routeTaskDeviceEvent out order bridge.taskDeviceId
        bridge.taskSlotCount nowMs event) := by
  cases event with
  | taskButton index pressed taskId => rfl
  | taskAction index gesture taskId => rfl
  | catalogAction action => rfl
  | modelCycle => rfl
  | usageSelect agent => rfl
  | microButton index pressed => exact routeMicroEvent_eq out h nowMs
  | encoderTurn index delta => exact routeMicroEvent_eq out h nowMs
  | taskToggle index taskId =>
      -- the primary loop has no route for a toggle, so nothing may be toggled
      have htoggle : bridge.routeTaskToggle out order bridge.taskDeviceId
          bridge.taskSlotCount index taskId nowMs =
            (decide (bridge.cardInRange bridge.taskSlotCount index = true ∧
              taskId.isSome = true), bridge) := by
        unfold routeTaskToggle
        split
        next hrange => rw [h hrange]; simp [hrange]
        next hrange => simp [hrange]
      show bridge.routeMicroEvent out nowMs (.taskToggle index taskId) = _
      simp only [routeTaskDeviceEvent, htoggle]
      rfl
  | button index pressed =>
      simp only [PathsMeet] at h
      cases hrange : bridge.cardInRange bridge.taskSlotCount index with
      | false =>
          rw [hrange] at h
          have hempty : bridge.routeTaskButton out order bridge.taskDeviceId
              bridge.taskSlotCount index pressed none nowMs = (false, bridge) :=
            routeTaskButton_of_empty out order (by simp [hrange]) pressed nowMs
          have hfar : ¬ index < bridge.taskSlotCount := by
            simpa [cardInRange, hmode] using hrange
          simp only [pollEvent, routeTaskDeviceEvent, hempty, hfar, decide_false,
            Bool.and_false, Bool.false_eq_true, if_false]
          exact routeMicroEvent_eq out h nowMs
      | true =>
          rw [hrange] at h
          have hnear : index < bridge.taskSlotCount := by
            simpa [cardInRange, hmode] using hrange
          cases htask : bridge.taskBoard.taskAt order bridge.taskDeviceId index with
          | some task =>
              have hconsumed := routeTaskButton_consumed out order hrange htask pressed nowMs
              simp only [pollEvent, routeTaskDeviceEvent, hconsumed, if_true]
          | none =>
              have hempty : bridge.routeTaskButton out order bridge.taskDeviceId
                  bridge.taskSlotCount index pressed none nowMs = (false, bridge) :=
                routeTaskButton_of_empty out order (fun _ => htask) pressed nowMs
              simp only [pollEvent, routeTaskDeviceEvent, hempty, hmode, hnear]
              -- the empty card is inert, or nothing is sent for its position
              rcases h htask with howns | hsilent
              · simp [howns]
              · split
                · rfl
                · split
                  · rfl
                  · simpa using routeMicroEvent_of_silent out hsilent nowMs pressed
  | encoderButton index pressed =>
      match index with
      | 0 => exact routeMicroEvent_eq out h nowMs
      | 1 => exact routeMicroEvent_eq out h nowMs
      | 2 =>
          simp only [pollEvent, routeTaskDeviceEvent]
          cases hdictated : (bridge.routeDesktopDictation out pressed).1 with
          | true => simp
          | false =>
              simp only [Bool.false_eq_true, if_false]
              split
              · rfl
              · exact routeMicroEvent_eq out (h hdictated) nowMs
      | _ + 3 => exact routeMicroEvent_eq out h nowMs

/-! ## A list of events -/

/-- The loops serve every event of the list alike in the state it meets. -/
def AllMeet (nowMs : Nat) : List PhysicalEvent → BridgeRuntime World → Prop
  | [], _ => True
  | event :: events, bridge =>
      bridge.PathsMeet out order event ∧
        AllMeet nowMs events (bridge.routeTaskDeviceEvent out order bridge.taskDeviceId
          bridge.taskSlotCount nowMs event)

theorem pollEvents_eq (nowMs : Nat) (events : List PhysicalEvent)
    {bridge : BridgeRuntime World} (hmode : bridge.taskMode = true)
    (h : AllMeet out order nowMs events bridge) :
    pollEvents out order nowMs events bridge =
      (.ok (), bridge.routeDeviceEvents out order bridge.taskDeviceId bridge.taskSlotCount
        nowMs events) := by
  induction events generalizing bridge with
  | nil => rfl
  | cons event events ih =>
      obtain ⟨hevent, hevents⟩ := h
      have hsetting := setting_routeTaskDeviceEvent out order bridge bridge.taskDeviceId
        bridge.taskSlotCount nowMs event
      simp only [setting, Prod.mk.injEq] at hsetting
      obtain ⟨hmode', hdevice, hslots, -⟩ := hsetting
      simp only [pollEvents, pollEvent_eq out order hmode hevent]
      rw [ih (hmode'.trans hmode) hevents, hdevice, hslots]
      rfl

/-- What the two loops are compared on. -/
structure SameRouting (a b : BridgeRuntime World) : Prop where
  taskBoard : a.taskBoard = b.taskBoard
  radialState : a.radialState = b.radialState
  routing : a.routing = b.routing
  pendingTaskEvents : a.pendingTaskEvents = b.pendingTaskEvents
  hidMessages : a.hidMessages = b.hidMessages

/-- In task mode, events served alike one by one leave the same bridge and the
same world, whichever of the two loops serves them. -/
theorem controller_paths_agree (bridge : BridgeRuntime World) (events : List PhysicalEvent)
    (hmode : bridge.taskMode = true)
    (hmeet : AllMeet out order (bridge.call out.systemTime).1 events
      (bridge.call out.systemTime).2) :
    bridge.routePrimaryEvents out order events =
      (.ok (), bridge.routeTaskDeviceEvents out order bridge.taskDeviceId
        bridge.taskSlotCount events) :=
  pollEvents_eq out order _ events hmode hmeet

/-! ## A deck with one card -/

/-- A plugin deck of six keys as the task device, with one Codex card on its
first key. -/
def pluginDeck : BridgeRuntime Unit :=
  { opened () 0 with
    controller := some ⟨.streamDeckPlugin, "streamdeck-plugin", some "deck"⟩
    hasSerial := true
    taskMode := true
    taskDeviceId := "streamdeck-plugin:deck"
    taskSlotCount := 6
    taskBoard := TaskBoard.run
      [(.ascending, .setDevice "streamdeck-plugin:deck" 6 true),
        (.ascending, .publishTasks 1 .codex (.object [("tasks", .array [
          .object [("task_id", .string "build"), ("state", .string "running")]])]) 0)]
      {} }

theorem controller_paths_agree_pluginDeck :
    pluginDeck.routePrimaryEvents Outside.idle .ascending
        [.button 0 true, .button 0 false, .encoderTurn 1 1] =
      (.ok (), pluginDeck.routeTaskDeviceEvents Outside.idle .ascending
        "streamdeck-plugin:deck" 6 [.button 0 true, .button 0 false, .encoderTurn 1 1]) := by
  refine controller_paths_agree Outside.idle .ascending pluginDeck _ rfl ⟨?_, ?_, ?_, trivial⟩
  -- both edges find the card, and the port takes the detent
  · intro hempty
    exact absurd hempty (by decide +kernel)
  · intro hempty
    exact absurd hempty (by decide +kernel)
  · intro message hmessage
    cases hmessage
    rfl

/-- A toggle of the card is served by the auxiliary loop and by it alone. -/
theorem taskToggle_paths_differ :
    ¬ ∀ (out : Outside Unit) (order : WalkOrder) (bridge : BridgeRuntime Unit)
      (events : List PhysicalEvent), bridge.taskMode = true →
      SameRouting (bridge.routePrimaryEvents out order events).2
        (bridge.routeTaskDeviceEvents out order bridge.taskDeviceId bridge.taskSlotCount
          events) := by
  intro h
  have hevents := (h Outside.idle .ascending pluginDeck [.taskToggle 0 none]
    rfl).pendingTaskEvents
  have hlength := congrArg List.length hevents
  revert hlength
  decide +kernel

end BridgeRuntime
end Bridge
end MicroEmu
