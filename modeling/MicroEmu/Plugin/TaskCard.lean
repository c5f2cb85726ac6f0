import MicroEmu.Plugin.Context

/-!
# The Task Card action

A key of the Stream Deck shows the card of a slot and sends what is done with it: a short
press, or a long one when its timer fires before the key is released.  The images go to the
key one after another, and a press is bound to the task whose image has reached the key.
-/

namespace MicroEmu
namespace Plugin

open Json (Value)

/-- What the action makes the plugin send: to the daemon, or for `openTask` to Codex. -/
inductive Message (Num : Type) where
  | taskAction (slot : Num) (gesture : String) (taskId : String)
  | taskToggle (slot : Num) (taskId : String)
  | taskButton (slot : Num) (pressed : Bool) (taskId : String)
  | openTask (taskId : String)

/-- The drawing of images, which may throw. -/
structure Images (Num : Type) where
  renderTaskCardImage : (slot : Num) → (agent : Option Value) → (status : String) →
    (color : Option Value) → (startedAt finishedAt : Option Num) → (selected : Bool) →
    (now : Nat) → Option String
  /-- `renderDisconnectedImage` with the number of a slot. -/
  renderDisconnectedImage : (slot : Num) → Option String

/-- A target of a press, an object of its own. -/
structure Target (Num : Type) where
  identity : Nat
  slot : Num
  taskId : String

/-- `TaskCardAction` with one key, its timers, and what the key shows. -/
structure TaskCardAction (Num : Type) where
  settings : Value
  ctx : Context Num
  renderedTarget : Option String
  pressedTarget : Option (Target Num)
  longPressed : Bool
  longPressTimer : Option Nat
  /-- The timers that are set, with the targets of their callbacks. -/
  timers : List (Nat × Target Num)
  /-- The next timer, and the next target. -/
  fresh : Nat
  renderVersion : Nat
  /-- Renders that wait for their turn. -/
  renderQueue : List (Nat × Value)
  /-- The upload under way, and the target that goes with its image. -/
  upload : Option (String × Option String)
  renderedImage : Option String
  /-- The image on the key. -/
  shown : Option String

variable {Num : Type} (js : Js Num) (images : Images Num)

/-! ## Cards -/

/-- `timestamp`. -/
def timestamp (value : Option Value) : Option Num :=
  let parsed := js.number value
  if js.isFinite parsed && js.less (js.ofNat 0) parsed then some parsed else none

/-- `statusForCard`. -/
def statusForCard (card : Value) : String :=
  match coalesce (card.get? "status") (card.get? "state") with
  | some (.string explicit) => if explicit ≠ "" then explicit else idleStatus card
  | _ => idleStatus card
where
  /-- The status of a card without one. -/
  idleStatus (card : Value) : String :=
    if js.equal (js.number (coalesce (card.get? "e") (some (.ofNat 0)))) (js.ofNat 0) then ""
    else "idle"

/-- `isRunningStatus`. -/
def isRunningStatus (status : String) : Bool :=
  ["running", "working", "active", "thinking"].contains (js.toLowerCase status)

/-- `isFinishedStatus`. -/
def isFinishedStatus (status : String) : Bool :=
  ["completed", "complete", "done"].contains (js.toLowerCase status)

/-- The status or state of a card as a text. -/
def stateText (card : Option Value) : String :=
  js.toLowerCase (((coalesce (field card "status")
    (coalesce (field card "state") (some (.string "")))).map js.string).getD "")

/-- `isWaitingInteraction`. -/
def isWaitingInteraction (card : Option Value) : Bool :=
  stateText js card == "waiting" && (field card "interaction").any isRecord

/-- `hasAction`. -/
def hasAction (card : Option Value) (gesture : String) : Bool :=
  (field card "interaction").any fun interaction =>
    isRecord interaction && (interaction.get? gesture).any isRecord

/-- `taskIdentity`. -/
def taskIdentity (card : Value) : Option String :=
  ((card.get? "task_id").bind Value.asStr).filter (· ≠ "")

/-- `cardSlot`. -/
def cardSlot (card : Option Value) : Option Num :=
  let value := cardNumber js card
  if js.isFinite value then some value else none

/-- `isSelectedTask`. -/
def isSelectedTask (ctx : Context Num) (taskId : String) : Bool :=
  decide ((field (ctx.getSelectedTaskCard js) "task_id").bind Value.asStr = some taskId)

/-- `isExtendedCodexTask`. -/
def isExtendedCodexTask (card : Option Value) : Bool :=
  decide ((field card "agent").bind Value.asStr = some "codex") &&
    js.isInteger (js.number (field card "source_slot")) &&
    js.atMost (js.ofNat 6) (js.number (field card "source_slot")) &&
    ((field card "task_id").bind Value.asStr).any fun taskId =>
      taskId != "" && !taskId.startsWith "legacy:" && !taskId.startsWith "codex-hid:"

/-- The image of a card. -/
def cardImage (slot : Num) (card : Value) (selected : Bool) (now : Nat) : Option String :=
  images.renderTaskCardImage slot (coalesce (card.get? "agent") (some .null))
    (statusForCard js card) (coalesce (card.get? "color") (card.get? "c"))
    (timestamp js (card.get? "started_at_ms")) (timestamp js (card.get? "finished_at_ms"))
    selected now

/-- The image of an empty slot. -/
def emptyImage (slot : Num) (now : Nat) : Option String :=
  images.renderTaskCardImage slot (some .null) "" (some (.ofNat 0x263238)) none none false now

/-- The slot of the settings. -/
def settingsSlot (settings : Value) : Num :=
  js.number (coalesce (settings.get? "slot") (some (.ofNat 0)))

namespace TaskCardAction

variable (action : TaskCardAction Num)

/-! ## Rendering -/

/-- `enqueueRefresh`. -/
def enqueueRefresh : TaskCardAction Num :=
  { action with
    renderVersion := action.renderVersion + 1
    renderQueue := action.renderQueue ++ [(action.renderVersion + 1, action.settings)] }

/-- The state that listeners are told about, and the render it leads to. -/
def notify (ctx : Context Num) : TaskCardAction Num := { action with ctx := ctx }.enqueueRefresh

/-- `setImageIfChanged`, and then the target that goes with the image. -/
def setImage (image : Option String) (target : Option String) : TaskCardAction Num :=
  match image with
  | none => action
  | some image =>
      if action.renderedImage = some image then
        { action with renderedTarget := target.or action.renderedTarget }
      else { action with upload := some (image, target) }

/-- `refresh`, up to the end of the upload. -/
def refresh (settings : Value) (now : Nat) : TaskCardAction Num :=
  let slot := settingsSlot js settings
  let blanked := { action with renderedTarget := none }
  if !action.ctx.connected then
    blanked.setImage (images.renderDisconnectedImage slot) none
  else
    match action.ctx.cardAt js slot with
    | .error () => action
    | .ok none => blanked.setImage (emptyImage images slot now) none
    | .ok (some card) =>
        let enabled :=
          !js.equal (js.number (coalesce (card.get? "e") (some (.ofNat 1)))) (js.ofNat 0)
        if !enabled && !isFinishedStatus js (statusForCard js card) then
          blanked.setImage (emptyImage images slot now) none
        else
          match taskIdentity card with
          | none => blanked.setImage (emptyImage images slot now) none
          | some taskId => action.setImage (cardImage js images slot card
              (action.ctx.selectedTaskSlot.any fun selected => js.equal selected slot) now)
              (some taskId)

/-- The next render takes its turn; one that is stale is dropped. -/
def startRender (now : Nat) : TaskCardAction Num :=
  if action.upload.isSome then action
  else
    match action.renderQueue with
    | [] => action
    | (version, settings) :: later =>
        let taken := { action with renderQueue := later }
        if version ≠ action.renderVersion then taken else taken.refresh js images settings now

/-- The upload succeeds or fails. -/
def endRender (succeeded : Bool) : TaskCardAction Num :=
  match action.upload with
  | none => action
  | some (image, target) =>
      if succeeded then
        { action with
          upload := none
          shown := some image
          renderedImage := some image
          renderedTarget := target.or action.renderedTarget }
      else { action with upload := none }

/-- `refreshDynamicCards`. -/
def refreshDynamicCards : TaskCardAction Num :=
  match action.ctx.cardAt js (settingsSlot js action.settings) with
  | .error () => action
  | .ok card =>
      if action.ctx.connected && isRunningStatus js (stateText js card) then action.enqueueRefresh
      else action

/-! ## Presses -/

/-- The timers without the one that is kept, by `clearTimeout`. -/
def clearedTimers : List (Nat × Target Num) :=
  match action.longPressTimer with
  | none => action.timers
  | some timer => action.timers.filter (·.1 ≠ timer)

/-- `onKeyDown`; a press that is not accepted only shows an alert, or nothing. -/
def onKeyDown (settings : Value) : TaskCardAction Num :=
  if !action.ctx.connected then action
  else
    match action.renderedTarget.filter (· ≠ "") with
    | none => action
    | some taskId =>
        let target : Target Num := ⟨action.fresh, settingsSlot js settings, taskId⟩
        { action with
          pressedTarget := some target
          longPressTimer := some action.fresh
          timers := action.clearedTimers ++ [(action.fresh, target)]
          fresh := action.fresh + 1 }

/-- The callback of a timer. -/
def longPress (timer : Nat) : List (Message Num) × TaskCardAction Num :=
  match action.timers.find? (·.1 = timer) with
  | none => ([], action)
  | some (_, target) =>
      let fired := { action with
        timers := action.timers.filter (·.1 ≠ timer)
        longPressTimer := none }
      if action.pressedTarget.map (·.identity) ≠ some target.identity then ([], fired)
      else
        let current := action.ctx.getTaskCardById target.taskId
        let message :=
          if isWaitingInteraction js current && isSelectedTask js action.ctx target.taskId &&
              hasAction current "long" then
            .taskAction target.slot "long" target.taskId
          else .taskToggle target.slot target.taskId
        ([message], { fired with longPressed := true })

/-- What a release does away with. -/
def released : TaskCardAction Num :=
  { action with
    pressedTarget := none
    longPressTimer := none
    timers := action.clearedTimers
    longPressed := false }

/-- The short gesture of `onKeyUp`; one that selects makes the card the selected one. -/
def shortPress (target : Target Num) : List (Message Num) × TaskCardAction Num :=
  let current := action.ctx.getTaskCardById target.taskId
  if isWaitingInteraction js current && isSelectedTask js action.ctx target.taskId &&
      hasAction current "short" then
    ([.taskAction target.slot "short" target.taskId], action)
  else
    ([.taskButton target.slot true target.taskId, .taskButton target.slot false target.taskId] ++
        (if isExtendedCodexTask js current then [.openTask target.taskId] else []),
      match cardSlot js current with
      | none => action
      | some slot => action.notify (action.ctx.selectTaskSlot slot))

/-- `onKeyUp`. -/
def onKeyUp : List (Message Num) × TaskCardAction Num :=
  match action.pressedTarget with
  | none => ([], action)
  | some target =>
      if action.longPressed then ([], action.released) else action.released.shortPress js target

end TaskCardAction

/-! ## Events -/

/-- What happens to the action. -/
inductive CardEvent where
  | connection (connected : Bool)
  | taskCards (cards : List Value)
  | threadStatus (status : List Value)
  /-- Another change that listeners are told about. -/
  | notified
  | refreshTimer
  | startRender (now : Nat)
  | endRender (succeeded : Bool)
  | keyDown (settings : Value)
  | longPress (timer : Nat)
  | keyUp

/-- One event, with the messages it leads to. -/
def TaskCardAction.step (action : TaskCardAction Num) :
    CardEvent → List (Message Num) × TaskCardAction Num
  | .connection connected => ([], action.notify (action.ctx.setConnected connected))
  | .taskCards cards => ([], action.notify (action.ctx.renderTaskCards js cards))
  | .threadStatus status => ([], action.notify (action.ctx.renderThreadStatus status))
  | .notified => ([], action.enqueueRefresh)
  | .refreshTimer => ([], action.refreshDynamicCards js)
  | .startRender now => ([], action.startRender js images now)
  | .endRender succeeded => ([], action.endRender succeeded)
  | .keyDown settings => ([], action.onKeyDown js settings)
  | .longPress timer => action.longPress js timer
  | .keyUp => action.onKeyUp js

/-- The action when it appears on a key. -/
def TaskCardAction.appeared (settings : Value) (ctx : Context Num) : TaskCardAction Num :=
  enqueueRefresh {
    settings := settings
    ctx := ctx
    renderedTarget := none
    pressedTarget := none
    longPressed := false
    longPressTimer := none
    timers := []
    fresh := 0
    renderVersion := 0
    renderQueue := []
    upload := none
    renderedImage := none
    shown := none }

end Plugin
end MicroEmu
