import MicroEmu.Bridge.Paths

/-!
# Press and release of a task key

A task key is pressed against one board and released against a later one; what
happens in between is arbitrary.  Each edge queues key events for an owner
session and sends key messages to the Codex HID device.  The key-ups of the
release mirror the key-downs of the press exactly when the two edges resolve to
the same owner and keys.
-/

namespace MicroEmu
namespace Bridge

open Json (Value)
open Routing (AgentId)
open Codex (PhysicalEvent)
open Tasks (TaskBoard TaskCard WalkOrder)

/-! ## Key edges in the output -/

/-- Where a key edge goes: the Codex HID device or an owner session. -/
inductive Recipient where
  | hid
  | session (id : Nat)
  deriving DecidableEq, Repr

/-- The key of a queued key event with the given edge. -/
def queuedKey? (pressed : Bool) (event : Value) : Option String :=
  if (event.get? "type").bind Value.asStr = some "key" ∧
      (event.get? "pressed").bind Value.asBool = some pressed then
    (event.get? "key").bind Value.asStr
  else none

/-- The key of a HID message with the given edge; an encoder detent and a radial
message have none. -/
def hidKey? (pressed : Bool) (message : Value) : Option String :=
  let parameters := message.get? "p"
  if (message.get? "m").bind Value.asStr = some "v.oai.hid" ∧
      (parameters.bind (·.get? "act")).bind Value.asU64 = some pressed.toNat then
    (parameters.bind (·.get? "k")).bind Value.asStr
  else none

/-- The key edges among queued events and sent messages. -/
def keyEdges (pressed : Bool) (queued : List (Nat × Value)) (sent : List Value) :
    List (Recipient × String) :=
  (queued.filterMap fun entry =>
      (queuedKey? pressed entry.2).map fun key => (Recipient.session entry.1, key)) ++
    (sent.filterMap (hidKey? pressed)).map fun key => (Recipient.hid, key)

theorem keyEdges_append (pressed : Bool) (queued : List (Nat × Value)) (sent : List Value) :
    keyEdges pressed queued sent = keyEdges pressed queued [] ++ keyEdges pressed [] sent := by
  simp [keyEdges]

theorem keyEdges_queued_append (pressed : Bool) (queued queued' : List (Nat × Value)) :
    keyEdges pressed (queued ++ queued') [] =
      keyEdges pressed queued [] ++ keyEdges pressed queued' [] := by
  simp [keyEdges]

theorem queuedKey?_keyEvent (edge pressed : Bool) (key : String) (nowMs : Nat) :
    queuedKey? edge (BridgeRuntime.keyEvent key pressed nowMs) =
      if edge = pressed then some key else none := by
  cases edge <;> cases pressed <;> rfl

theorem hidKey?_hidMessage (edge pressed : Bool) (key : String) (agent : Option Nat) :
    hidKey? edge (Codex.hidMessage key pressed.toNat agent) =
      if edge = pressed then some key else none := by
  cases edge <;> cases pressed <;> cases agent <;> rfl

/-- A message that is no edge of the other kind than `pressed`. -/
def OneEdged (pressed : Bool) (message : Value) : Prop :=
  hidKey? (!pressed) message = none

theorem oneEdged_hidMessage (pressed : Bool) (key : String) (agent : Option Nat) :
    OneEdged pressed (Codex.hidMessage key pressed.toNat agent) := by
  rw [OneEdged, hidKey?_hidMessage, if_neg (by simp)]

theorem oneEdged_radial (pressed : Bool) (axis : Codex.RadialAxis) (angle : Json.F64) :
    OneEdged pressed (axis.message angle) := by
  cases pressed <;> rfl

theorem oneEdged_buttonMessage {index : Nat} {pressed : Bool} {message : Value}
    (h : Codex.RadialState.buttonMessage index pressed = some message) :
    OneEdged pressed message := by
  unfold Codex.RadialState.buttonMessage at h
  split at h
  · cases h
    exact oneEdged_hidMessage pressed _ _
  · split at h
    · cases h
      exact oneEdged_hidMessage pressed _ _
    · cases h

/-- A synthetic key is the press and release of one control, or one turn. -/
theorem syntheticEvents_cases {key : String} {events : List PhysicalEvent}
    (h : Codex.syntheticEvents key = some events) :
    (∃ index, index ≤ 8 ∧ events = [.button index true, .button index false]) ∨
      (∃ delta : Int, delta ≠ 0 ∧ events = [.encoderTurn 0 delta]) ∨
      events = [.encoderButton 0 true, .encoderButton 0 false] := by
  unfold Codex.syntheticEvents at h
  split at h
  all_goals cases h
  all_goals first
    | exact Or.inl ⟨_, by decide, rfl⟩
    | exact Or.inr (Or.inl ⟨_, by decide, rfl⟩)
    | exact Or.inr (Or.inr rfl)

/-- The HID message of one edge of a legacy key is no edge of the other kind. -/
theorem oneEdged_legacyMessage {key : String} {pressed : Bool} {message : Value}
    (h : BridgeRuntime.legacyMessage key pressed = some message) :
    OneEdged pressed message := by
  unfold BridgeRuntime.legacyMessage Codex.messagesForSyntheticKey at h
  cases hevents : Codex.syntheticEvents key with
  | none => simp [hevents] at h
  | some events =>
      simp only [hevents] at h
      rcases syntheticEvents_cases hevents with ⟨index, hindex, rfl⟩ | ⟨delta, hdelta, rfl⟩ | rfl
      · have hedge : ∀ edge, ∃ m, Codex.RadialState.buttonMessage index edge = some m := by
          intro edge
          unfold Codex.RadialState.buttonMessage
          split
          · exact ⟨_, rfl⟩
          · exact ⟨_, rfl⟩
        obtain ⟨down, hdown⟩ := hedge true
        obtain ⟨up, hup⟩ := hedge false
        simp only [List.filterMap_cons, List.filterMap_nil, Codex.messageForPhysicalEvent,
          Codex.RadialState.event, hdown, hup] at h
        cases pressed with
        | true => cases h; exact oneEdged_buttonMessage hdown
        | false => cases h; exact oneEdged_buttonMessage hup
      · simp only [List.filterMap_cons, List.filterMap_nil, Codex.messageForPhysicalEvent,
          Codex.RadialState.event, hdelta, if_false] at h
        cases pressed with
        | true => cases h; exact oneEdged_radial true _ _
        | false => cases h; exact oneEdged_radial false _ _
      · cases pressed with
        | true => cases h; exact oneEdged_hidMessage true _ _
        | false => cases h; exact oneEdged_hidMessage false _ _

namespace BridgeRuntime

variable {World : Type} (out : Outside World) (order : WalkOrder)

/-! ## What a step emits -/

/-- A step appends `queued` to the events of the owner sessions and `sent` to
the messages of the HID device. -/
structure Emits (before after : BridgeRuntime World) (queued : List (Nat × Value))
    (sent : List Value) : Prop where
  tasks : after.pendingTaskEvents = before.pendingTaskEvents ++ queued
  hid : after.hidMessages = before.hidMessages ++ sent

namespace Emits

variable {a b c : BridgeRuntime World} {queued queued' : List (Nat × Value)}
  {sent sent' : List Value}

theorem of_eq (htasks : b.pendingTaskEvents = a.pendingTaskEvents)
    (hhid : b.hidMessages = a.hidMessages) : Emits a b [] [] :=
  ⟨by rw [htasks, List.append_nil], by rw [hhid, List.append_nil]⟩

theorem trans (hab : Emits a b queued sent) (hbc : Emits b c queued' sent') :
    Emits a c (queued ++ queued') (sent ++ sent') :=
  ⟨by rw [hbc.tasks, hab.tasks, List.append_assoc], by rw [hbc.hid, hab.hid, List.append_assoc]⟩

end Emits

/-- The key edges a step emits. -/
def sentEdges (pressed : Bool) (before after : BridgeRuntime World) :
    List (Recipient × String) :=
  keyEdges pressed (after.pendingTaskEvents.drop before.pendingTaskEvents.length)
    (after.hidMessages.drop before.hidMessages.length)

theorem Emits.sentEdges_eq {before after : BridgeRuntime World}
    {queued : List (Nat × Value)} {sent : List Value} (h : Emits before after queued sent)
    (pressed : Bool) : sentEdges pressed before after = keyEdges pressed queued sent := by
  rw [sentEdges, h.tasks, h.hid, List.drop_left, List.drop_left]

/-- The serial port is there and takes the message. -/
def delivers (bridge : BridgeRuntime World) (message : Value) : Bool :=
  bridge.hasSerial && (bridge.sendCodex out message).1.toOption.isSome

theorem delivers_congr {a b : BridgeRuntime World} (h : a.portState = b.portState)
    (message : Value) : a.delivers out message = b.delivers out message := by
  have hserial : a.hasSerial = b.hasSerial := congrArg Prod.fst h
  rw [delivers, delivers, sendCodex_congr out h, hserial]

theorem writeReports_emits (reports : List (List UInt8)) (bridge : BridgeRuntime World) :
    Emits bridge (writeReports out reports bridge).2 [] [] := by
  induction reports generalizing bridge with
  | nil => exact .of_eq rfl rfl
  | cons report reports ih =>
      simp only [writeReports]
      split
      · exact .of_eq rfl rfl
      · exact ⟨(ih _).tasks, (ih _).hid⟩

/-- Sending a message emits it when the port takes it, and nothing else. -/
theorem sendCodex_emits (bridge : BridgeRuntime World) (message : Value) :
    Emits bridge (bridge.sendCodex out message).2 []
      ((some message).filter (bridge.delivers out)).toList := by
  simp only [Option.filter_some]
  unfold delivers sendCodex
  cases bridge.hasSerial with
  | false => exact .of_eq rfl rfl
  | true =>
      cases Codex.frameJson out.toVec message with
      | error error => exact .of_eq rfl rfl
      | ok reports =>
          simp only [if_true, Bool.true_and]
          have hwrite := writeReports_emits out reports bridge
          cases hresult : (writeReports out reports bridge).1 with
          | error error => exact hwrite
          | ok written =>
              exact ⟨hwrite.tasks, by
                show _ ++ [message] = _
                rw [hwrite.hid, List.append_nil]
                rfl⟩

theorem sendLegacyKey_emits (bridge : BridgeRuntime World) (key : String) (pressed : Bool) :
    Emits bridge (bridge.sendLegacyKey out key pressed) []
      ((legacyMessage key pressed).filter (bridge.delivers out)).toList := by
  unfold sendLegacyKey
  cases hmessage : legacyMessage key pressed with
  | none => split <;> exact .of_eq rfl rfl
  | some message =>
      split
      next => exact sendCodex_emits out bridge message
      next hserial =>
        have hdelivers : bridge.delivers out message = false := by
          simp [delivers, hserial]
        simp only [Option.filter_some, hdelivers]
        exact .of_eq rfl rfl

/-! ## Selecting and driving the desktop -/

/-- The event of a selection is no key event. -/
theorem queuedKey?_selectTask {board : TaskBoard} {taskId : String} {nowMs : Nat}
    {event : Value} (h : (board.selectTask taskId nowMs).1 = some event) (edge : Bool) :
    queuedKey? edge event = none := by
  simp only [TaskBoard.selectTask] at h
  split at h
  · cases h
    rfl
  · cases h

theorem queuedKey?_select {board : TaskBoard} {deviceId : String} {slot nowMs : Nat}
    {event : Value} (h : (board.select order deviceId slot nowMs).1 = some event)
    (edge : Bool) : queuedKey? edge event = none := by
  unfold TaskBoard.select at h
  split at h
  · cases h
  · exact queuedKey?_selectTask h edge

/-- Queue the event of a selection, if it has one. -/
def announce (bridge : BridgeRuntime World) (owner : Nat) (event : Option Value)
    (board : TaskBoard) : BridgeRuntime World :=
  match event with
  | none => { bridge with taskBoard := board }
  | some event => { bridge with taskBoard := board }.pushTaskEvent owner event

theorem announce_emits (bridge : BridgeRuntime World) (owner : Nat) {event : Option Value}
    (board : TaskBoard)
    (hevent : ∀ selected, event = some selected → ∀ edge, queuedKey? edge selected = none) :
    ∃ queued, Emits bridge (bridge.announce owner event board) queued [] ∧
      ∀ edge, keyEdges edge queued [] = [] := by
  cases event with
  | none => exact ⟨[], .of_eq rfl rfl, fun _ => rfl⟩
  | some selected =>
      refine ⟨[(owner, selected)], ⟨rfl, (List.append_nil _).symm⟩, fun edge => ?_⟩
      simp [keyEdges, hevent selected rfl edge]

/-- Selecting the pressed task emits no key edge. -/
theorem selectPressed_emits (bridge : BridgeRuntime World) (deviceId : String)
    (index : Nat) (taskId : Option String) (task : TaskCard) (nowMs : Nat) :
    ∃ queued, Emits bridge (bridge.selectPressed order deviceId index taskId task nowMs)
      queued [] ∧ ∀ edge, keyEdges edge queued [] = [] := by
  cases taskId with
  | none => exact announce_emits bridge _ _ fun _ h edge => queuedKey?_select order h edge
  | some taskId => exact announce_emits bridge _ _ fun _ h edge => queuedKey?_selectTask h edge

theorem driveDesktop_emits (bridge : BridgeRuntime World) (task : TaskCard) :
    Emits bridge (bridge.driveDesktop out task) [] [] := by
  unfold driveDesktop
  split <;> (try split) <;> exact .of_eq rfl rfl

/-- A card of the Codex session opens no window, so the port is as it was. -/
theorem portState_driveDesktop (bridge : BridgeRuntime World) {task : TaskCard}
    (h : task.ownerSession = 0) :
    (bridge.driveDesktop out task).portState = bridge.portState := by
  unfold driveDesktop
  rw [h]
  cases task.ownerAgent <;> rfl

theorem portState_selectPressed (bridge : BridgeRuntime World) (deviceId : String)
    (index : Nat) (taskId : Option String) (task : TaskCard) (nowMs : Nat) :
    (bridge.selectPressed order deviceId index taskId task nowMs).portState =
      bridge.portState := by
  unfold selectPressed
  cases taskId <;> (simp only; split <;> rfl)

/-! ## Edges of a card -/

/-- The HID message a card's key sends for one edge. -/
def cardMessage (task : TaskCard) (pressed : Bool) : Option Value :=
  if task.ownerSession = 0 then task.legacyKey.bind fun key => legacyMessage key pressed
  else none

theorem routeLegacyKey_emits (bridge : BridgeRuntime World) (task : TaskCard)
    (pressed : Bool) (nowMs : Nat) :
    Emits bridge (bridge.routeLegacyKey out task pressed nowMs)
      (task.legacyKey.map fun key => (task.ownerSession, keyEvent key pressed nowMs)).toList
      ((cardMessage task pressed).filter (bridge.delivers out)).toList := by
  unfold routeLegacyKey cardMessage
  cases hkey : task.legacyKey with
  | none => simpa using Emits.of_eq (a := bridge) (b := bridge) rfl rfl
  | some key =>
      -- the selection guard touches the board only
      let guarded :=
        if pressed ∧ task.ownerSession = 0 then
          { bridge with
            taskBoard := bridge.taskBoard.guardSelectionActivation task.taskId nowMs }
        else bridge
      let queued := guarded.pushTaskEvent task.ownerSession (keyEvent key pressed nowMs)
      have hguarded : Emits bridge guarded [] [] := by
        simp only [guarded]
        split <;> exact .of_eq rfl rfl
      have hport : queued.portState = bridge.portState := by
        simp only [queued, guarded]
        split <;> rfl
      have hqueued : Emits bridge queued
          [(task.ownerSession, keyEvent key pressed nowMs)] [] :=
        hguarded.trans ⟨rfl, (List.append_nil _).symm⟩
      have hdelivers : queued.delivers out = bridge.delivers out := by
        funext message
        exact delivers_congr out hport message
      by_cases howner : task.ownerSession = 0
      · have hsent := hqueued.trans (sendLegacyKey_emits out queued key pressed)
        rw [hdelivers] at hsent
        simpa [howner, queued, guarded] using hsent
      · simpa [howner, queued, guarded] using hqueued

/-! ## One edge of a key -/

/-- A step sends one edge of a key: the event of `target` to its owner session,
the message of the HID device if the port takes it, and no opposite edge. -/
def SendsEdge (before after : BridgeRuntime World) (pressed : Bool)
    (target : Option (Nat × String)) (message : Option Value) : Prop :=
  ∃ queued, Emits before after queued (message.filter (before.delivers out)).toList ∧
    keyEdges pressed queued [] =
      (target.map fun key => (Recipient.session key.1, key.2)).toList ∧
    keyEdges (!pressed) queued [] = [] ∧ ∀ m, message = some m → OneEdged pressed m

/-- The key whose edge the HID device receives. -/
def hidTarget (bridge : BridgeRuntime World) (pressed : Bool) (message : Option Value) :
    Option String :=
  (message.filter (bridge.delivers out)).bind (hidKey? pressed)

namespace SendsEdge

variable {out} {before after : BridgeRuntime World} {pressed : Bool}
  {target : Option (Nat × String)} {message : Option Value}

theorem sentEdges_same (h : SendsEdge out before after pressed target message) :
    sentEdges pressed before after =
      (target.map fun key => (Recipient.session key.1, key.2)).toList ++
        ((before.hidTarget out pressed message).map fun key => (Recipient.hid, key)).toList := by
  obtain ⟨queued, hemits, htarget, -, -⟩ := h
  rw [hemits.sentEdges_eq, keyEdges_append, htarget]
  congr 1
  unfold hidTarget
  cases message.filter (before.delivers out) with
  | none => rfl
  | some m =>
      simp only [keyEdges, Option.toList_some, List.filterMap_nil, List.nil_append,
        List.filterMap_cons, Option.bind_some]
      cases hidKey? pressed m <;> rfl

theorem sentEdges_opposite (h : SendsEdge out before after pressed target message) :
    sentEdges (!pressed) before after = [] := by
  obtain ⟨queued, hemits, -, hqueued, hedge⟩ := h
  rw [hemits.sentEdges_eq, keyEdges_append, hqueued, List.nil_append]
  cases hmessage : message.filter (before.delivers out) with
  | none => rfl
  | some m =>
      have hm : OneEdged pressed m := hedge m (Option.filter_eq_some_iff.mp hmessage).1
      simp only [OneEdged] at hm
      simp [keyEdges, hm]

end SendsEdge

theorem sendsNothing (bridge : BridgeRuntime World) (pressed : Bool) :
    SendsEdge out bridge bridge pressed none none :=
  ⟨[], .of_eq rfl rfl, rfl, rfl, by simp⟩

theorem oneEdged_cardMessage {task : TaskCard} {pressed : Bool} {message : Value}
    (h : cardMessage task pressed = some message) : OneEdged pressed message := by
  unfold cardMessage at h
  split at h
  · obtain ⟨key, -, hkey⟩ := Option.bind_eq_some_iff.mp h
    exact oneEdged_legacyMessage hkey
  · cases h

/-- The owner session and the legacy key of a card. -/
def legacyTarget (task : TaskCard) : Option (Nat × String) :=
  task.legacyKey.map fun key => (task.ownerSession, key)

/-- A card in range sends its own edge. -/
theorem routeTaskButton_sendsEdge (bridge : BridgeRuntime World) {deviceId : String}
    {slotCount index : Nat} {taskId : Option String} {task : TaskCard}
    (hrange : bridge.cardInRange slotCount index = true)
    (htask : bridge.resolveTaskTarget order deviceId index taskId = some task)
    (pressed : Bool) (nowMs : Nat) :
    SendsEdge out bridge
      (bridge.routeTaskButton out order deviceId slotCount index pressed taskId nowMs).2
      pressed (legacyTarget task) (cardMessage task pressed) := by
  let chosen :=
    if pressed then
      (bridge.selectPressed order deviceId index taskId task nowMs).driveDesktop out task
    else bridge
  have hchosen : ∃ queued, Emits bridge chosen queued [] ∧
      ∀ edge, keyEdges edge queued [] = [] := by
    simp only [chosen]
    split
    · obtain ⟨queued, hselect, hsilent⟩ :=
        selectPressed_emits order bridge deviceId index taskId task nowMs
      refine ⟨queued, ?_, hsilent⟩
      simpa using hselect.trans (driveDesktop_emits out _ task)
    · exact ⟨[], .of_eq rfl rfl, fun _ => rfl⟩
  obtain ⟨queued, hemits, hsilent⟩ := hchosen
  -- a card that sends to the HID device leaves the port alone before it does
  have hfilter : (cardMessage task pressed).filter (chosen.delivers out) =
      (cardMessage task pressed).filter (bridge.delivers out) := by
    by_cases howner : task.ownerSession = 0
    · have hport : chosen.portState = bridge.portState := by
        simp only [chosen]
        split
        · rw [portState_driveDesktop out _ howner, portState_selectPressed]
        · rfl
      have hdelivers : chosen.delivers out = bridge.delivers out :=
        funext fun message => delivers_congr out hport message
      rw [hdelivers]
    · simp [cardMessage, howner]
  have hkey := routeLegacyKey_emits out chosen task pressed nowMs
  rw [hfilter] at hkey
  have hrouted : (bridge.routeTaskButton out order deviceId slotCount index pressed taskId
      nowMs).2 = chosen.routeLegacyKey out task pressed nowMs := by
    simp only [routeTaskButton, hrange, htask, if_true, chosen]
  refine ⟨_, hrouted ▸ hemits.trans hkey, ?_, ?_, fun m hm => oneEdged_cardMessage hm⟩
  · have happend := keyEdges_queued_append pressed queued
      (task.legacyKey.map fun key => (task.ownerSession, keyEvent key pressed nowMs)).toList
    rw [happend, hsilent, List.nil_append]
    unfold legacyTarget
    cases task.legacyKey with
    | none => rfl
    | some key => simp [keyEdges, queuedKey?_keyEvent]
  · have happend := keyEdges_queued_append (!pressed) queued
      (task.legacyKey.map fun key => (task.ownerSession, keyEvent key pressed nowMs)).toList
    rw [happend, hsilent, List.nil_append]
    cases task.legacyKey with
    | none => rfl
    | some key => simp [keyEdges, queuedKey?_keyEvent]

theorem sendRadial_emits (bridge : BridgeRuntime World) (event : PhysicalEvent) :
    Emits bridge (bridge.sendRadial out event).2 []
      (((bridge.radialState.event event).1).filter (bridge.delivers out)).toList := by
  simp only [sendRadial]
  cases hmessage : (bridge.radialState.event event).1 with
  | none => exact .of_eq rfl rfl
  | some message =>
      let turned := { bridge with radialState := (bridge.radialState.event event).2 }
      have hdelivers : turned.delivers out = bridge.delivers out :=
        funext fun message => delivers_congr out (a := turned) (b := bridge) rfl message
      have hturned : Emits bridge turned [] [] := .of_eq rfl rfl
      have hsend := hturned.trans (sendCodex_emits out turned message)
      rw [hdelivers] at hsend
      simp only
      split
      next => exact hsend
      next hserial =>
        have hdead : bridge.delivers out message = false := by simp [delivers, hserial]
        simp only [Option.filter_some, hdead]
        exact hturned

/-- A position outside the task cards sends the message of its Micro key. -/
theorem routeMicroEvent_sendsEdge (bridge : BridgeRuntime World) (index : Nat)
    (pressed : Bool) (nowMs : Nat) :
    SendsEdge out bridge (bridge.routeMicroEvent out nowMs (.button index pressed)).2 pressed
      none (bridge.hidMessageOf (.button index pressed)) := by
  have hedge : ∀ m, bridge.hidMessageOf (.button index pressed) = some m →
      OneEdged pressed m := by
    intro m hm
    simp only [hidMessageOf] at hm
    split at hm
    · exact oneEdged_buttonMessage hm
    · cases hm
  refine ⟨[], ?_, rfl, rfl, hedge⟩
  have hradial := sendRadial_emits out bridge (.button index pressed)
  simp only [routeMicroEvent, routePosition, hidMessageOf]
  cases howner : bridge.partition.ownerOf index with
  | none => simpa [howner] using hradial
  | some owner =>
      cases owner with
      | codex =>
          -- a buffered press leaves the port and the two logs as they were
          let kept :=
            if bridge.hasSerial then bridge else bridge.bufferButton index pressed nowMs
          have hkept : Emits bridge kept [] [] := by
            simp only [kept]
            split <;> exact .of_eq rfl rfl
          have hdelivers : kept.delivers out = bridge.delivers out := by
            funext message
            apply delivers_congr out
            simp only [kept]
            split <;> rfl
          have hmessage : (kept.radialState.event (.button index pressed)).1 =
              (bridge.radialState.event (.button index pressed)).1 := by
            simp only [kept]
            split <;> rfl
          have hsent := hkept.trans (sendRadial_emits out kept (.button index pressed))
          rw [hdelivers, hmessage] at hsent
          simpa [howner, kept] using hsent
      | zCode => exact .of_eq rfl rfl
      | hermes => exact .of_eq rfl rfl
      | claude => exact .of_eq rfl rfl

/-! ## A task key on a controller -/

/-- A task key of a controller, addressed by its position or by a task id. -/
inductive TaskKey where
  | position (index : Nat)
  | card (index : Nat) (taskId : Option String)
  deriving DecidableEq, Repr

namespace TaskKey

def index : TaskKey → Nat
  | position index => index
  | card index _ => index

def taskId : TaskKey → Option String
  | position _ => none
  | card _ taskId => taskId

/-- The physical event of one edge of the key. -/
def edge (key : TaskKey) (pressed : Bool) : PhysicalEvent :=
  match key with
  | position index => .button index pressed
  | card index taskId => .taskButton index pressed taskId

end TaskKey

/-- The loop that serves a controller: the primary one, or that of an auxiliary
controller with its device id and slot count. -/
inductive Path where
  | primary
  | auxiliary (deviceId : String) (slotCount : Nat)
  deriving DecidableEq, Repr

namespace Path

/-- Serve one event of the controller. -/
def serve (path : Path) (nowMs : Nat) (event : PhysicalEvent) (bridge : BridgeRuntime World) :
    BridgeRuntime World :=
  match path with
  | primary => (bridge.pollEvent out order nowMs event).2
  | auxiliary deviceId slotCount =>
      bridge.routeTaskDeviceEvent out order deviceId slotCount nowMs event

def deviceId (path : Path) (bridge : BridgeRuntime World) : String :=
  match path with
  | primary => bridge.taskDeviceId
  | auxiliary deviceId _ => deviceId

def slotCount (path : Path) (bridge : BridgeRuntime World) : Nat :=
  match path with
  | primary => bridge.taskSlotCount
  | auxiliary _ slotCount => slotCount

/-- The card a key resolves to in this state. -/
def card (path : Path) (bridge : BridgeRuntime World) (key : TaskKey) : Option TaskCard :=
  if bridge.cardInRange (path.slotCount bridge) key.index then
    bridge.resolveTaskTarget order (path.deviceId bridge) key.index key.taskId
  else none

/-- An edge without a card goes no further: the key names a card, or its position
is one. -/
def inert (path : Path) (bridge : BridgeRuntime World) : TaskKey → Bool
  | .card _ _ => true
  | .position index =>
      match path with
      | primary => bridge.taskMode && bridge.ownsTaskDevice &&
          decide (index < bridge.taskSlotCount)
      | auxiliary _ slotCount => bridge.taskMode && decide (index < slotCount)

/-- The owner session and the legacy key an edge resolves to. -/
def ownerKey (path : Path) (bridge : BridgeRuntime World) (key : TaskKey) :
    Option (Nat × String) :=
  (path.card order bridge key).bind legacyTarget

/-- The message an edge has for the HID device. -/
def message (path : Path) (bridge : BridgeRuntime World) (key : TaskKey) (pressed : Bool) :
    Option Value :=
  match path.card order bridge key with
  | some task => cardMessage task pressed
  | none =>
      if path.inert bridge key then none else bridge.hidMessageOf (key.edge pressed)

/-- The key of the HID device an edge resolves to, if the serial port takes its
message. -/
def hidKey (path : Path) (bridge : BridgeRuntime World) (key : TaskKey) (pressed : Bool) :
    Option String :=
  bridge.hidTarget out pressed (path.message order bridge key pressed)

/-- What the button route of the controller does with one edge of a key. -/
def routed (path : Path) (bridge : BridgeRuntime World) (key : TaskKey) (pressed : Bool)
    (nowMs : Nat) : Bool × BridgeRuntime World :=
  bridge.routeTaskButton out order (path.deviceId bridge) (path.slotCount bridge) key.index
    pressed key.taskId nowMs

/-- An edge the button route leaves alone goes to the Micro positions, unless it
is inert. -/
theorem serve_edge (path : Path) (bridge : BridgeRuntime World) (key : TaskKey)
    (pressed : Bool) (nowMs : Nat) :
    path.serve out order nowMs (key.edge pressed) bridge =
      if (path.routed out order bridge key pressed nowMs).1 ∨ path.inert bridge key then
        (path.routed out order bridge key pressed nowMs).2
      else (bridge.routeMicroEvent out nowMs (key.edge pressed)).2 := by
  cases key with
  | card index taskId =>
      have hinert : path.inert bridge (.card index taskId) = true := rfl
      rw [if_pos (Or.inr hinert)]
      cases path <;> rfl
  | position index =>
      cases hrouted : (path.routed out order bridge (.position index) pressed nowMs).1 with
      | true =>
          rw [if_pos (Or.inl rfl)]
          cases path with
          | primary =>
              simp only [routed, deviceId, slotCount, TaskKey.index, TaskKey.taskId] at hrouted
              simp only [serve, TaskKey.edge, pollEvent, hrouted, if_true]
              rfl
          | auxiliary device slots =>
              simp only [routed, deviceId, slotCount, TaskKey.index, TaskKey.taskId] at hrouted
              simp only [serve, TaskKey.edge, routeTaskDeviceEvent, hrouted, if_true]
              rfl
      | false =>
          -- an unconsumed edge has left the bridge alone
          have hbridge : path.routed out order bridge (.position index) pressed nowMs =
              (false, bridge) := by
            refine routeTaskButton_of_empty out order ?_ pressed nowMs
            intro hrange
            cases htask : bridge.taskBoard.taskAt order (path.deviceId bridge) index with
            | none => exact htask
            | some task =>
                have hconsumed :=
                  routeTaskButton_consumed out order hrange htask pressed nowMs
                exact absurd (hconsumed.symm.trans hrouted) (by decide)
          rw [hbridge]
          cases path with
          | primary =>
              simp only [routed, deviceId, slotCount, TaskKey.index, TaskKey.taskId] at hbridge
              simp only [serve, TaskKey.edge, pollEvent, hbridge, inert, Bool.false_eq_true,
                if_false, false_or]
              split <;> rfl
          | auxiliary device slots =>
              simp only [routed, deviceId, slotCount, TaskKey.index, TaskKey.taskId] at hbridge
              simp only [serve, TaskKey.edge, routeTaskDeviceEvent, hbridge, inert,
                Bool.false_eq_true, if_false, false_or]

/-- Without a card the button route leaves the bridge alone, and consumes the edge
of a key that names one only in range. -/
theorem routed_of_no_card {path : Path} {bridge : BridgeRuntime World} {key : TaskKey}
    (hcard : path.card order bridge key = none) (pressed : Bool) (nowMs : Nat) :
    (path.routed out order bridge key pressed nowMs).2 = bridge ∧
      ((path.routed out order bridge key pressed nowMs).1 = true →
        path.inert bridge key = true) := by
  unfold routed routeTaskButton
  split
  next hrange =>
    have htask : bridge.resolveTaskTarget order (path.deviceId bridge) key.index
        key.taskId = none := by
      simpa [card, hrange] using hcard
    rw [htask]
    refine ⟨rfl, fun hid => ?_⟩
    cases key with
    | card index taskId => rfl
    | position index => cases hid
  next => exact ⟨rfl, fun hfalse => by cases hfalse⟩

/-- One edge of a task key sends what it resolves to in the state it meets. -/
theorem serve_sendsEdge (path : Path) (bridge : BridgeRuntime World) (key : TaskKey)
    (pressed : Bool) (nowMs : Nat) :
    SendsEdge out bridge (path.serve out order nowMs (key.edge pressed) bridge) pressed
      (path.ownerKey order bridge key) (path.message order bridge key pressed) := by
  rw [serve_edge]
  unfold ownerKey message
  cases hcard : path.card order bridge key with
  | some task =>
      have hrange : bridge.cardInRange (path.slotCount bridge) key.index = true := by
        by_contra hrange
        simp [card, hrange] at hcard
      have htask : bridge.resolveTaskTarget order (path.deviceId bridge) key.index
          key.taskId = some task := by
        simpa [card, hrange] using hcard
      have hconsumed : (path.routed out order bridge key pressed nowMs).1 = true := by
        simp only [routed, routeTaskButton, hrange, htask, if_true]
      rw [if_pos (Or.inl hconsumed)]
      exact routeTaskButton_sendsEdge out order bridge hrange htask pressed nowMs
  | none =>
      obtain ⟨hbridge, hinert⟩ := routed_of_no_card out order hcard pressed nowMs
      by_cases hstays : path.inert bridge key = true
      · rw [if_pos (Or.inr hstays), hbridge]
        simp only [hstays, if_true]
        exact sendsNothing out bridge pressed
      · rw [if_neg (by rintro (h | h) <;> [exact hstays (hinert h); exact hstays h])]
        simp only [hstays]
        cases key with
        | card index taskId => exact absurd rfl hstays
        | position index => exact routeMicroEvent_sendsEdge out bridge index pressed nowMs

end Path

/-- The key-ups of a release mirror the key-downs of its press: the press sends no
key-up, the release sends no key-down, and what the one puts down the other
takes up, for the same recipients. -/
def Paired (pressedFrom pressed releasedFrom released : BridgeRuntime World) : Prop :=
  sentEdges false pressedFrom pressed = [] ∧ sentEdges true releasedFrom released = [] ∧
    sentEdges false releasedFrom released = sentEdges true pressedFrom pressed

/-- An owner key and a HID key can be read off the list of their edges. -/
theorem edges_inj {owner owner' : Option (Nat × String)} {hid hid' : Option String} :
    (owner.map fun key => (Recipient.session key.1, key.2)).toList ++
        (hid.map fun key => (Recipient.hid, key)).toList =
      (owner'.map fun key => (Recipient.session key.1, key.2)).toList ++
        (hid'.map fun key => (Recipient.hid, key)).toList ↔
      owner = owner' ∧ hid = hid' := by
  rcases owner with _ | ⟨s, k⟩ <;> rcases owner' with _ | ⟨s', k'⟩ <;>
    rcases hid with _ | h <;> rcases hid' with _ | h' <;> simp

/-- Whatever happens between the two edges of a task key, its key-ups mirror its
key-downs if and only if the release resolves to the owner, the legacy key and
the HID key of the press. -/
theorem press_release_pairing (order' : WalkOrder) (path path' : Path) (key : TaskKey)
    (nowMs nowMs' : Nat) (bridge : BridgeRuntime World)
    (between : BridgeRuntime World → BridgeRuntime World) :
    let pressed := path.serve out order nowMs (key.edge true) bridge
    let later := between pressed
    let released := path'.serve out order' nowMs' (key.edge false) later
    Paired bridge pressed later released ↔
      path.ownerKey order bridge key = path'.ownerKey order' later key ∧
        path.hidKey out order bridge key true = path'.hidKey out order' later key false := by
  intro pressed later released
  have hdown := Path.serve_sendsEdge out order path bridge key true nowMs
  have hup := Path.serve_sendsEdge out order' path' later key false nowMs'
  have hnoUp : sentEdges false bridge pressed = [] := hdown.sentEdges_opposite
  have hnoDown : sentEdges true later released = [] := hup.sentEdges_opposite
  have hups : sentEdges false later released = _ := hup.sentEdges_same
  have hdowns : sentEdges true bridge pressed = _ := hdown.sentEdges_same
  unfold Paired
  rw [hups, hdowns, edges_inj]
  constructor
  · rintro ⟨-, -, howner, hhid⟩
    exact ⟨howner.symm, hhid.symm⟩
  · rintro ⟨howner, hhid⟩
    exact ⟨hnoUp, hnoDown, howner.symm, hhid.symm⟩

/-- A deck whose first card carries a legacy key of session 1. -/
def legacyDeck : BridgeRuntime Unit :=
  { pluginDeck with
    taskBoard := TaskBoard.run
      [(.ascending, .setDevice "streamdeck-plugin:deck" 6 true),
        (.ascending, .publishLegacyStatus 1 .codex (.array [.object []]) 0)] {} }

/-- Session 1 publishes an empty status. -/
def withdraw (bridge : BridgeRuntime Unit) : BridgeRuntime Unit :=
  { bridge with
    taskBoard := bridge.taskBoard.apply .ascending
      (.publishLegacyStatus 1 .codex (.array []) 0) }

/-- A session takes its cards off the board while the key of one is held down:
the key is never released. -/
theorem held_key_stays_down :
    ¬ ∀ (out : Outside Unit) (order : WalkOrder) (path : Path) (key : TaskKey)
      (bridge : BridgeRuntime Unit) (between : BridgeRuntime Unit → BridgeRuntime Unit),
      let pressed := path.serve out order 0 (key.edge true) bridge
      let released := path.serve out order 0 (key.edge false) (between pressed)
      Paired bridge pressed (between pressed) released := by
  intro h
  obtain ⟨-, -, hups⟩ := h Outside.idle .ascending .primary (.position 0) legacyDeck withdraw
  revert hups
  decide +kernel

end BridgeRuntime
end Bridge
end MicroEmu
