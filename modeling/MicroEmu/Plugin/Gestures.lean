import MicroEmu.Library.Histories
import MicroEmu.Plugin.TaskCard

/-!
# The gestures of a task card

A press that is accepted should lead to one gesture: a long one when its timer fires, or a
short one when the key is released.  What a press leaves behind when its release is lost
breaks this for a later release: the mark of a long press swallows a short one, and a
target is there for a press that was rejected.  Releases that meet neither obey the law.
-/

namespace MicroEmu
namespace Plugin

open Json (Value)
open Library (EachStep Taken eachStep_iff taken)

variable {Num : Type}

/-- A step of the action, with what it sends. -/
abbrev CardStep (Num : Type) : Type := Taken (TaskCardAction Num) CardEvent (List (Message Num))

/-- The task that a press is bound to, if it is accepted. -/
def TaskCardAction.accepts (action : TaskCardAction Num) : Option String :=
  if action.ctx.connected then action.renderedTarget.filter (· ≠ "") else none

/-! ## The law -/

/-- One long gesture for a task. -/
def LongGesture (taskId : String) (sent : List (Message Num)) : Prop :=
  ∃ slot, sent = [.taskAction slot "long" taskId] ∨ sent = [.taskToggle slot taskId]

/-- One short gesture for a task: an action, or the pair of press and release, behind which
an extended task is opened. -/
def ShortGesture (taskId : String) (sent : List (Message Num)) : Prop :=
  ∃ slot, sent = [.taskAction slot "short" taskId] ∨
    sent = [.taskButton slot true taskId, .taskButton slot false taskId] ∨
    sent = [.taskButton slot true taskId, .taskButton slot false taskId, .openTask taskId]

theorem LongGesture.ne_nil {taskId : String} {sent : List (Message Num)}
    (h : LongGesture taskId sent) : sent ≠ [] := by
  obtain ⟨slot, rfl | rfl⟩ := h
  · exact List.cons_ne_nil _ _
  · exact List.cons_ne_nil _ _

theorem ShortGesture.ne_nil {taskId : String} {sent : List (Message Num)}
    (h : ShortGesture taskId sent) : sent ≠ [] := by
  obtain ⟨slot, rfl | rfl | rfl⟩ := h
  · exact List.cons_ne_nil _ _
  · exact List.cons_ne_nil _ _
  · exact List.cons_ne_nil _ _

/-- The accepted press that is under way, and what has been sent since; the latest step
stands first. -/
def heldPress : List (CardStep Num) → Option (String × List (List (Message Num)))
  | [] => none
  | step :: past =>
      match step.input with
      | .keyDown _ => step.before.accepts.map fun taskId => (taskId, [])
      | .keyUp => none
      | _ => (heldPress past).map fun press =>
          (press.1, press.2 ++ if step.output.isEmpty then [] else [step.output])

/-- The task of the last press that was accepted. -/
def lastAccepted : List (CardStep Num) → Option String
  | [] => none
  | step :: past =>
      match step.input with
      | .keyDown _ => step.before.accepts.or (lastAccepted past)
      | _ => lastAccepted past

variable (js : Js Num) (images : Images Num)

/-- The image is one of a card of the task. -/
def ImageOf (taskId image : String) : Prop :=
  ∃ slot card selected now, taskIdentity card = some taskId ∧
    cardImage js images slot card selected now = some image

/-- The key shows an image of the task. -/
def Shows (taskId : String) (shown : Option String) : Prop :=
  ∃ image, shown = some image ∧ ImageOf js images taskId image

/-! ## The observer of the renders -/

/-- The settings of the render that takes its turn: the first in the queue, unless an image
is under way or the render is stale. -/
def TaskCardAction.turn (action : TaskCardAction Num) : Option Value :=
  if action.upload.isSome then none
  else
    match action.renderQueue with
    | [] => none
    | (version, settings) :: _ => if version = action.renderVersion then some settings else none

/-- The task and the image of the card that a render draws, unless it draws an empty slot or
that there is no connection. -/
def drawnCard (ctx : Context Num) (settings : Value) (now : Nat) :
    Option (String × Option String) :=
  if !ctx.connected then none
  else
    match ctx.cardAt js (settingsSlot js settings) with
    | .ok (some card) =>
        if js.equal (js.number (coalesce (card.get? "e") (some (.ofNat 1)))) (js.ofNat 0) &&
            !isFinishedStatus js (statusForCard js card) then none
        else
          (taskIdentity card).map fun taskId =>
            (taskId, cardImage js images (settingsSlot js settings) card
              (ctx.selectedTaskSlot.any fun selected =>
                js.equal selected (settingsSlot js settings)) now)
    | _ => none

/-- What an observer of the renders knows: the task of the card whose render has put the
image on the key, and that of the card whose image is under way to it. -/
structure Observed where
  shown : Option String
  underWay : Option String

/-- The observer follows the renders that take their turn and the uploads that succeed. -/
def observed : List (CardStep Num) → Observed
  | [] => ⟨none, none⟩
  | step :: past =>
      let seen := observed past
      match step.input with
      | .startRender now =>
          match step.before.turn.map fun settings =>
              drawnCard js images step.before.ctx settings now with
          | none | some (some (_, none)) => seen
          | some none => { seen with underWay := none }
          | some (some (taskId, some image)) =>
              -- an image that is on the key already is not uploaded again
              if step.before.shown = some image then { seen with shown := some taskId }
              else { seen with underWay := some taskId }
      | .endRender true =>
          if step.before.upload.isSome then { seen with shown := seen.underWay } else seen
      | _ => seen

/-! ## Lawful steps -/

/-- What a step may send: a release completes the press under way, if there is one, by a
short gesture, unless the long one has been sent; a timer sends a long gesture for the last
accepted press; a press is accepted for the task whose card the observer has seen put the
image on the key; and nothing else sends anything. -/
def Lawful (past : List (CardStep Num)) (step : CardStep Num) : Prop :=
  match step.input with
  | .keyUp =>
      match heldPress past with
      | none => step.output = []
      | some (taskId, gestures) =>
          (gestures = [] ∧ ShortGesture taskId step.output) ∨
            (step.output = [] ∧ ∃ gesture, gestures = [gesture] ∧ LongGesture taskId gesture)
  | .longPress _ => step.output = [] ∨
      ∃ taskId, lastAccepted past = some taskId ∧ LongGesture taskId step.output
  | .keyDown _ => step.output = [] ∧ ∀ taskId, step.before.accepts = some taskId →
      (observed js images past).shown = some taskId ∧
        Shows js images taskId step.before.shown
  | _ => step.output = []

/-- The steps of the action from its appearance on. -/
def cardRun (settings : Value) (ctx : Context Num) (events : List CardEvent) :
    List (CardStep Num) :=
  taken (TaskCardAction.step js images) events (.appeared settings ctx)

/-- The law of gestures, for a run. -/
def GestureLaw (steps : List (CardStep Num)) : Prop := EachStep (Lawful js images) [] steps

/-! ## When it holds -/

/-- The last of presses and releases is a press that was accepted. -/
def pressAccepted : List (CardStep Num) → Bool
  | [] => false
  | step :: past =>
      match step.input with
      | .keyDown _ => step.before.accepts.isSome
      | .keyUp => false
      | _ => pressAccepted past

/-- A release meets nothing that a press without a release has left behind: neither, with
its own timer still running, the mark of a long press, nor, behind a press that was
rejected, a target without that mark. -/
def MeetsNothingLeft (past : List (CardStep Num)) (step : CardStep Num) : Prop :=
  match step.input with
  | .keyUp =>
      if pressAccepted past then
        ¬(step.before.longPressed = true ∧ step.before.longPressTimer.isSome = true)
      else step.before.pressedTarget.isNone = true ∨ step.before.longPressed = true
  | _ => True

/-! ## What the key shows -/

namespace TaskCardAction

/-- The targets are those of the cards the observer has seen. -/
structure Rendered (past : List (CardStep Num)) (action : TaskCardAction Num) : Prop where
  target : ∀ {taskId : String}, action.renderedTarget = some taskId →
    (observed js images past).shown = some taskId ∧ Shows js images taskId action.shown
  image : action.renderedImage = action.shown
  upload : ∀ {image : String} {target : Option String}, action.upload = some (image, target) →
    (observed js images past).underWay = target ∧
      (∀ taskId, target = some taskId → ImageOf js images taskId image) ∧
      (target = none → action.renderedTarget = none)

variable {js images} {action : TaskCardAction Num} {past : List (CardStep Num)}

theorem Rendered.congr {other : TaskCardAction Num} {later : List (CardStep Num)}
    (h : Rendered js images past action)
    (hseen : observed js images later = observed js images past)
    (htarget : other.renderedTarget = action.renderedTarget)
    (hshown : other.shown = action.shown) (himage : other.renderedImage = action.renderedImage)
    (hupload : other.upload = action.upload) : Rendered js images later other where
  target := fun {_} hother => hseen ▸ hshown ▸ h.target (htarget ▸ hother)
  image := (himage.trans h.image).trans hshown.symm
  upload := fun {_ _} hother => hseen ▸ htarget ▸ h.upload (hupload ▸ hother)

/-- What a render does: it takes the target away before an image without one, or it draws
the card the observer sees, or it fails. -/
theorem refresh_cases (js : Js Num) (images : Images Num) (action : TaskCardAction Num)
    (settings : Value) (now : Nat) :
    (drawnCard js images action.ctx settings now = none ∧
      (action.refresh js images settings now = action ∨
        ∃ image, action.refresh js images settings now =
          { action with renderedTarget := none }.setImage image none)) ∨
    ∃ taskId image, drawnCard js images action.ctx settings now = some (taskId, image) ∧
      (∀ drawn, image = some drawn → ImageOf js images taskId drawn) ∧
      action.refresh js images settings now = action.setImage image (some taskId) := by
  unfold drawnCard TaskCardAction.refresh
  simp only
  split
  · exact .inl ⟨rfl, .inr ⟨_, rfl⟩⟩
  · cases hcard : action.ctx.cardAt js (settingsSlot js settings) with
    | error failure => exact .inl ⟨rfl, .inl rfl⟩
    | ok found =>
        cases found with
        | none => exact .inl ⟨rfl, .inr ⟨_, rfl⟩⟩
        | some card =>
            simp only [Bool.not_not]
            split
            · exact .inl ⟨rfl, .inr ⟨_, rfl⟩⟩
            · cases hidentity : taskIdentity card with
              | none => exact .inl ⟨rfl, .inr ⟨_, rfl⟩⟩
              | some taskId =>
                  exact .inr ⟨taskId, _, rfl, fun drawn hdrawn =>
                    ⟨_, card, _, now, hidentity, hdrawn⟩, rfl⟩

/-- An image without a target, when the target is gone. -/
theorem Rendered.blanked {later : List (CardStep Num)} (h : Rendered js images past action)
    (hidle : action.upload = none) (hseen : (observed js images later).underWay = none)
    (image : Option String) : Rendered js images later
      ({ action with renderedTarget := none }.setImage image none) := by
  unfold TaskCardAction.setImage
  split
  · exact ⟨nofun, h.image, fun {_ _} hupload => by simp [hidle] at hupload⟩
  · split
    · exact ⟨nofun, h.image, fun {_ _} hupload => by simp [hidle] at hupload⟩
    · refine ⟨nofun, h.image, fun {_ _} hupload => ?_⟩
      obtain ⟨rfl, rfl⟩ := Prod.mk.inj (Option.some.inj hupload)
      exact ⟨hseen, nofun, fun _ => rfl⟩

/-- The render of a card, whose target the observer knows. -/
theorem Rendered.drawn {later : List (CardStep Num)} (h : Rendered js images past action)
    (hidle : action.upload = none) {taskId : String} {image : Option String}
    (himage : ∀ drawn, image = some drawn → ImageOf js images taskId drawn)
    (hseen : observed js images later = match image with
      | none => observed js images past
      | some drawn =>
          if action.shown = some drawn then
            { observed js images past with shown := some taskId }
          else { observed js images past with underWay := some taskId }) :
    Rendered js images later (action.setImage image (some taskId)) := by
  cases image with
  | none => exact h.congr hseen rfl rfl rfl rfl
  | some drawn =>
      simp only [TaskCardAction.setImage]
      split
      · rename_i hsame
        have hshown : action.shown = some drawn := h.image.symm.trans hsame
        simp only [hshown, if_true] at hseen
        refine ⟨fun {rendered} hfound => ?_, h.image, fun {_ _} hupload => ?_⟩
        · obtain rfl := Option.some.inj hfound
          exact ⟨by rw [hseen], drawn, hshown, himage drawn rfl⟩
        · simp [hidle] at hupload
      · rename_i hdiffers
        rw [h.image] at hdiffers
        simp only [hdiffers, if_false] at hseen
        refine ⟨fun {_} hfound => hseen ▸ h.target hfound, h.image, fun {_ _} hupload => ?_⟩
        obtain ⟨rfl, rfl⟩ := Prod.mk.inj (Option.some.inj hupload)
        exact ⟨by rw [hseen], fun rendered hfound => Option.some.inj hfound ▸ himage _ rfl, nofun⟩

/-- A render that takes its turn. -/
theorem Rendered.refresh {before : TaskCardAction Num} (h : Rendered js images past action)
    (hidle : action.upload = none) {settings : Value} (hturn : before.turn = some settings)
    (hctx : before.ctx = action.ctx) (hshown : before.shown = action.shown) (now : Nat) :
    Rendered js images (⟨before, .startRender now, []⟩ :: past)
      (action.refresh js images settings now) := by
  rcases refresh_cases js images action settings now with
    ⟨hnone, hsame | ⟨image, hblank⟩⟩ | ⟨taskId, image, hsome, himage, hdrawn⟩
  · rw [hsame]
    refine ⟨fun {_} hfound => ?_, h.image, fun {_ _} hupload => ?_⟩
    · simpa only [observed, hturn, hctx, hnone, Option.map_some] using h.target hfound
    · rw [hidle] at hupload
      cases hupload
  · rw [hblank]
    refine h.blanked hidle ?_ image
    simp only [observed, hturn, hctx, hnone, Option.map_some]
  · rw [hdrawn]
    refine h.drawn hidle himage ?_
    cases image with
    | none => simp only [observed, hturn, hctx, hsome, Option.map_some]
    | some drawn => simp only [observed, hturn, hctx, hshown, hsome, Option.map_some]

theorem Rendered.startRender (h : Rendered js images past action) (now : Nat) :
    Rendered js images (⟨action, .startRender now, []⟩ :: past)
      (action.startRender js images now) := by
  unfold TaskCardAction.startRender
  split
  · rename_i hbusy
    refine h.congr ?_ rfl rfl rfl rfl
    simp only [observed, turn, if_pos hbusy, Option.map_none]
  · rename_i hfree
    have hidle : action.upload = none := Option.not_isSome_iff_eq_none.mp hfree
    split
    · rename_i hqueue
      refine h.congr ?_ rfl rfl rfl rfl
      simp only [observed, turn, if_neg hfree, hqueue, Option.map_none]
    · rename_i version settings later hqueue
      simp only
      split
      · rename_i hstale
        refine h.congr ?_ rfl rfl rfl rfl
        simp only [observed, turn, if_neg hfree, hqueue, if_neg hstale, Option.map_none]
      · rename_i hcurrent
        have hturn : action.turn = some settings := by
          simp only [turn, if_neg hfree, hqueue, if_pos (Decidable.not_not.mp hcurrent)]
        have htaken : Rendered js images past { action with renderQueue := later } :=
          h.congr rfl rfl rfl rfl rfl
        exact htaken.refresh hidle hturn rfl rfl now

theorem Rendered.endRender (h : Rendered js images past action) (succeeded : Bool) :
    Rendered js images (⟨action, .endRender succeeded, []⟩ :: past)
      (action.endRender succeeded) := by
  unfold TaskCardAction.endRender
  cases hupload : action.upload with
  | none =>
      refine h.congr ?_ rfl rfl rfl rfl
      cases succeeded with
      | false => rfl
      | true => simp [observed, hupload]
  | some upload =>
      obtain ⟨image, target⟩ := upload
      obtain ⟨hseen, himage, hempty⟩ := h.upload hupload
      cases succeeded with
      | false => exact ⟨h.target, h.image, nofun⟩
      | true =>
          have hshown : (observed js images (⟨action, .endRender true, []⟩ :: past)).shown =
              target := by
            simp [observed, hupload, hseen]
          refine ⟨fun {taskId} hfound => ?_, rfl, nofun⟩
          cases target with
          | none =>
              simp only [Option.none_or, hempty rfl] at hfound
              cases hfound
          | some rendered =>
              obtain rfl := Option.some.inj hfound
              exact ⟨hshown, image, rfl, himage rendered rfl⟩

theorem Rendered.onKeyDown (h : Rendered js images past action) (settings : Value) :
    Rendered js images past (action.onKeyDown js settings) := by
  unfold TaskCardAction.onKeyDown
  split
  · exact h
  · split
    · exact h
    · exact h.congr rfl rfl rfl rfl rfl

theorem Rendered.longPress (h : Rendered js images past action) (timer : Nat) :
    Rendered js images past (action.longPress js timer).2 := by
  unfold TaskCardAction.longPress
  split
  · exact h
  · simp only
    split
    · exact h.congr rfl rfl rfl rfl rfl
    · exact h.congr rfl rfl rfl rfl rfl

theorem Rendered.shortPress (h : Rendered js images past action) (target : Target Num) :
    Rendered js images past (action.shortPress js target).2 := by
  unfold TaskCardAction.shortPress
  simp only
  split
  · exact h
  · simp only
    split
    · exact h
    · exact h.congr rfl rfl rfl rfl rfl

theorem Rendered.onKeyUp (h : Rendered js images past action) :
    Rendered js images past (action.onKeyUp js).2 := by
  have hreleased : Rendered js images past action.released := h.congr rfl rfl rfl rfl rfl
  unfold TaskCardAction.onKeyUp
  split
  · exact h
  · split
    · exact hreleased
    · exact hreleased.shortPress _

theorem Rendered.refreshDynamicCards (h : Rendered js images past action) :
    Rendered js images past (action.refreshDynamicCards js) := by
  unfold TaskCardAction.refreshDynamicCards
  split
  · exact h
  · split
    · exact h.congr rfl rfl rfl rfl rfl
    · exact h

/-- The step lemma for what the key shows. -/
theorem Rendered.step (h : Rendered js images past action) (event : CardEvent) :
    Rendered js images (⟨action, event, (action.step js images event).1⟩ :: past)
      (action.step js images event).2 := by
  cases event with
  | connection connected => exact h.congr rfl rfl rfl rfl rfl
  | taskCards cards => exact h.congr rfl rfl rfl rfl rfl
  | threadStatus status => exact h.congr rfl rfl rfl rfl rfl
  | notified => exact h.congr rfl rfl rfl rfl rfl
  | refreshTimer => exact h.refreshDynamicCards.congr rfl rfl rfl rfl rfl
  | startRender now => exact h.startRender now
  | endRender succeeded => exact h.endRender succeeded
  | keyDown settings => exact (h.onKeyDown settings).congr rfl rfl rfl rfl rfl
  | longPress timer => exact (h.longPress timer).congr rfl rfl rfl rfl rfl
  | keyUp => exact h.onKeyUp.congr rfl rfl rfl rfl rfl

theorem rendered_appeared (js : Js Num) (images : Images Num) (settings : Value)
    (ctx : Context Num) : Rendered js images [] (appeared settings ctx) where
  target := fun {_} hfound => by cases hfound
  image := rfl
  upload := fun {_ _} hupload => by cases hupload

/-! ## What a press leaves -/

/-- How the steps that are past account for the press under way. -/
structure Pressing (past : List (CardStep Num)) (action : TaskCardAction Num) : Prop where
  timer : (action.longPressTimer = none ∧ action.timers = []) ∨
    ∃ timer target, action.longPressTimer = some timer ∧ action.timers = [(timer, target)] ∧
      action.pressedTarget = some target
  target : ∀ {target : Target Num}, action.pressedTarget = some target →
    lastAccepted past = some target.taskId
  marked : action.longPressed = true → action.pressedTarget.isSome = true
  held : ∀ {taskId : String} {gestures : List (List (Message Num))},
    heldPress past = some (taskId, gestures) →
    ∃ target, action.pressedTarget = some target ∧ target.taskId = taskId ∧
      ((action.longPressTimer.isSome = true ∧ gestures = []) ∨
        (action.longPressTimer = none ∧ action.longPressed = true ∧
          ∃ gesture, gestures = [gesture] ∧ LongGesture taskId gesture))
  accepted : pressAccepted past = (heldPress past).isSome

/-- A step that is neither a press nor a release nor a timer leaves the press under way as
it is. -/
theorem Pressing.other {past : List (CardStep Num)} (h : Pressing past action)
    {after : TaskCardAction Num} {step : CardStep Num}
    (hheld : heldPress (step :: past) = heldPress past)
    (hlast : lastAccepted (step :: past) = lastAccepted past)
    (haccepted : pressAccepted (step :: past) = pressAccepted past)
    (htarget : after.pressedTarget = action.pressedTarget)
    (hmark : after.longPressed = action.longPressed)
    (htimer : after.longPressTimer = action.longPressTimer)
    (htimers : after.timers = action.timers) : Pressing (step :: past) after := by
  refine ⟨?_, fun {_} hfound => ?_, ?_, fun {_ _} hfound => ?_, ?_⟩
  · rw [htimer, htimers, htarget]
    exact h.timer
  · rw [hlast]
    exact h.target (htarget ▸ hfound)
  · rw [hmark, htarget]
    exact h.marked
  · rw [htarget, htimer, hmark]
    exact h.held (hheld ▸ hfound)
  · rw [haccepted, hheld]
    exact h.accepted

/-- A render leaves alone what belongs to presses. -/
theorem refresh_eqs (settings : Value) (now : Nat) :
    (action.refresh js images settings now).pressedTarget = action.pressedTarget ∧
      (action.refresh js images settings now).longPressed = action.longPressed ∧
      (action.refresh js images settings now).longPressTimer = action.longPressTimer ∧
      (action.refresh js images settings now).timers = action.timers := by
  have himage : ∀ (start : TaskCardAction Num) (image target : Option String),
      (start.setImage image target).pressedTarget = start.pressedTarget ∧
        (start.setImage image target).longPressed = start.longPressed ∧
        (start.setImage image target).longPressTimer = start.longPressTimer ∧
        (start.setImage image target).timers = start.timers := by
    intro start image target
    unfold TaskCardAction.setImage
    split
    · exact ⟨rfl, rfl, rfl, rfl⟩
    · split
      · exact ⟨rfl, rfl, rfl, rfl⟩
      · exact ⟨rfl, rfl, rfl, rfl⟩
  unfold TaskCardAction.refresh
  simp only
  split
  · exact himage _ _ _
  · split
    · exact ⟨rfl, rfl, rfl, rfl⟩
    · exact himage _ _ _
    · split
      · exact himage _ _ _
      · split
        · exact himage _ _ _
        · exact himage _ _ _

variable (js images action) in
/-- What every event but presses, releases and timers leaves alone. -/
theorem step_eqs {event : CardEvent} (hdown : ∀ settings, event ≠ .keyDown settings)
    (hup : event ≠ .keyUp) (htimer : ∀ timer, event ≠ .longPress timer) :
    (action.step js images event).1 = [] ∧
      (action.step js images event).2.pressedTarget = action.pressedTarget ∧
      (action.step js images event).2.longPressed = action.longPressed ∧
      (action.step js images event).2.longPressTimer = action.longPressTimer ∧
      (action.step js images event).2.timers = action.timers := by
  cases event with
  | connection connected => exact ⟨rfl, rfl, rfl, rfl, rfl⟩
  | taskCards cards => exact ⟨rfl, rfl, rfl, rfl, rfl⟩
  | threadStatus status => exact ⟨rfl, rfl, rfl, rfl, rfl⟩
  | notified => exact ⟨rfl, rfl, rfl, rfl, rfl⟩
  | refreshTimer =>
      refine ⟨rfl, ?_⟩
      simp only [step, TaskCardAction.refreshDynamicCards]
      split
      · exact ⟨rfl, rfl, rfl, rfl⟩
      · split
        · exact ⟨rfl, rfl, rfl, rfl⟩
        · exact ⟨rfl, rfl, rfl, rfl⟩
  | startRender now =>
      refine ⟨rfl, ?_⟩
      simp only [step, TaskCardAction.startRender]
      split
      · exact ⟨rfl, rfl, rfl, rfl⟩
      · split
        · exact ⟨rfl, rfl, rfl, rfl⟩
        · split
          · exact ⟨rfl, rfl, rfl, rfl⟩
          · exact refresh_eqs _ _
  | endRender succeeded =>
      refine ⟨rfl, ?_⟩
      simp only [step, TaskCardAction.endRender]
      split
      · exact ⟨rfl, rfl, rfl, rfl⟩
      · split
        · exact ⟨rfl, rfl, rfl, rfl⟩
        · exact ⟨rfl, rfl, rfl, rfl⟩
  | keyDown settings => exact absurd rfl (hdown settings)
  | longPress timer => exact absurd rfl (htimer timer)
  | keyUp => exact absurd rfl hup

variable (js action) in
/-- An accepted press takes the place of what was there; a rejected one leaves it. -/
theorem onKeyDown_cases (settings : Value) :
    (action.accepts = none ∧ action.onKeyDown js settings = action) ∨
      ∃ taskId, action.accepts = some taskId ∧
        (action.onKeyDown js settings).pressedTarget =
          some ⟨action.fresh, settingsSlot js settings, taskId⟩ ∧
        (action.onKeyDown js settings).longPressed = action.longPressed ∧
        (action.onKeyDown js settings).longPressTimer = some action.fresh ∧
        (action.onKeyDown js settings).timers = action.clearedTimers ++
          [(action.fresh, ⟨action.fresh, settingsSlot js settings, taskId⟩)] := by
  unfold accepts TaskCardAction.onKeyDown
  cases hconnected : action.ctx.connected with
  | false => exact .inl ⟨rfl, rfl⟩
  | true =>
      cases htarget : action.renderedTarget.filter (· ≠ "") with
      | none => exact .inl ⟨rfl, rfl⟩
      | some taskId => exact .inr ⟨taskId, rfl, rfl, rfl, rfl, rfl⟩

/-- No other timer is set than the one that is kept. -/
theorem Pressing.clearedTimers_eq_nil {past : List (CardStep Num)} (h : Pressing past action) :
    action.clearedTimers = [] := by
  rcases h.timer with ⟨hnone, hempty⟩ | ⟨timer, target, hsome, hone, -⟩
  · simp only [clearedTimers, hnone, hempty]
  · simp [clearedTimers, hsome, hone]

theorem Pressing.onKeyDown {past : List (CardStep Num)} (h : Pressing past action)
    (settings : Value) :
    Pressing (⟨action, .keyDown settings, []⟩ :: past) (action.onKeyDown js settings) := by
  rcases action.onKeyDown_cases js settings with ⟨hrejected, hsame⟩ |
    ⟨taskId, haccepted, htarget, hmark, htimer, htimers⟩
  · rw [hsame]
    refine ⟨h.timer, fun {_} hfound => ?_, h.marked, fun {_ _} hfound => ?_, ?_⟩
    · simp only [lastAccepted, hrejected, Option.none_or]
      exact h.target hfound
    · simp only [heldPress, hrejected, Option.map_none] at hfound
      cases hfound
    · simp only [pressAccepted, heldPress, hrejected, Option.map_none, Option.isSome_none]
  · refine ⟨.inr ⟨action.fresh, _, htimer, ?_, htarget⟩, fun {_} hfound => ?_, fun _ => ?_,
      fun {_ _} hfound => ?_, ?_⟩
    · rw [htimers, h.clearedTimers_eq_nil, List.nil_append]
    · obtain rfl := Option.some.inj (htarget.symm.trans hfound)
      simp only [lastAccepted, haccepted, Option.some_or]
    · rw [htarget]
      rfl
    · simp only [heldPress, haccepted, Option.map_some] at hfound
      obtain ⟨rfl, rfl⟩ := Prod.mk.inj (Option.some.inj hfound)
      refine ⟨_, htarget, rfl, .inl ⟨?_, rfl⟩⟩
      rw [htimer]
      rfl
    · simp only [pressAccepted, heldPress, haccepted, Option.map_some, Option.isSome_some]

variable (js) in
/-- A timer that is set belongs to the target that is there, and sends its long gesture. -/
theorem longPress_cases {past : List (CardStep Num)} (h : Pressing past action) (timer : Nat) :
    action.longPress js timer = ([], action) ∨
      ∃ target, action.longPressTimer = some timer ∧ action.pressedTarget = some target ∧
        LongGesture target.taskId (action.longPress js timer).1 ∧
        (action.longPress js timer).2 =
          { action with timers := [], longPressTimer := none, longPressed := true } := by
  rcases h.timer with ⟨-, hempty⟩ | ⟨armed, target, hsome, hone, htarget⟩
  · refine .inl ?_
    simp only [TaskCardAction.longPress, hempty, List.find?_nil]
  · by_cases harmed : armed = timer
    · subst harmed
      have hfound : action.timers.find? (·.1 = armed) = some (armed, target) := by simp [hone]
      have hrest : action.timers.filter (·.1 ≠ armed) = [] := by simp [hone]
      refine .inr ⟨target, hsome, htarget, ?_⟩
      simp only [TaskCardAction.longPress, hfound, htarget, Option.map_some, ne_eq,
        not_true_eq_false, if_false, hrest, and_true]
      refine ⟨target.slot, ?_⟩
      split
      · exact .inl rfl
      · exact .inr rfl
    · refine .inl ?_
      have hfound : action.timers.find? (·.1 = timer) = none := by simp [hone, harmed]
      simp only [TaskCardAction.longPress, hfound]

variable (js action) in
/-- A short press is one short gesture and leaves alone what belongs to presses. -/
theorem shortPress_eqs (target : Target Num) :
    ShortGesture target.taskId (action.shortPress js target).1 ∧
      (action.shortPress js target).2.pressedTarget = action.pressedTarget ∧
      (action.shortPress js target).2.longPressed = action.longPressed ∧
      (action.shortPress js target).2.longPressTimer = action.longPressTimer ∧
      (action.shortPress js target).2.timers = action.timers := by
  unfold shortPress
  simp only
  split
  · exact ⟨⟨target.slot, .inl rfl⟩, rfl, rfl, rfl, rfl⟩
  · refine ⟨⟨target.slot, .inr ?_⟩, ?_⟩
    · split
      · exact .inr rfl
      · exact .inl rfl
    · simp only
      split
      · exact ⟨rfl, rfl, rfl, rfl⟩
      · exact ⟨rfl, rfl, rfl, rfl⟩

variable (js) in
/-- A release clears what its press has left, and completes it by a short gesture, unless
a long one is marked. -/
theorem onKeyUp_cases {past : List (CardStep Num)} (h : Pressing past action) :
    (action.pressedTarget = none ∧ action.onKeyUp js = ([], action)) ∨
      ∃ target, action.pressedTarget = some target ∧
        (action.onKeyUp js).2.pressedTarget = none ∧
        (action.onKeyUp js).2.longPressed = false ∧
        (action.onKeyUp js).2.longPressTimer = none ∧ (action.onKeyUp js).2.timers = [] ∧
        ((action.longPressed = true ∧ (action.onKeyUp js).1 = []) ∨
          (action.longPressed = false ∧ ShortGesture target.taskId (action.onKeyUp js).1)) := by
  cases htarget : action.pressedTarget with
  | none =>
      refine .inl ⟨rfl, ?_⟩
      simp only [TaskCardAction.onKeyUp, htarget]
  | some target =>
      refine .inr ⟨target, rfl, ?_⟩
      have hcleared := h.clearedTimers_eq_nil
      unfold TaskCardAction.onKeyUp
      rw [htarget]
      simp only
      split
      · rename_i hmark
        exact ⟨rfl, rfl, rfl, hcleared, .inl ⟨hmark, rfl⟩⟩
      · rename_i hmark
        obtain ⟨hshort, htarget', hmark', htimer', htimers'⟩ :=
          action.released.shortPress_eqs js target
        exact ⟨htarget', hmark', htimer', htimers'.trans hcleared,
          .inr ⟨Bool.eq_false_of_not_eq_true hmark, hshort⟩⟩

/-- A step that is neither a press nor a release and sends nothing leaves the press under
way as it is. -/
theorem heldPress_cons (action : TaskCardAction Num) (past : List (CardStep Num))
    (event : CardEvent) (hdown : ∀ settings, event ≠ .keyDown settings) (hup : event ≠ .keyUp) :
    heldPress (⟨action, event, []⟩ :: past) = heldPress past ∧
      lastAccepted (⟨action, event, []⟩ :: past) = lastAccepted past ∧
      pressAccepted (⟨action, event, []⟩ :: past) = pressAccepted past := by
  have hmap : (heldPress past).map (fun press => (press.1, press.2 ++ [])) = heldPress past := by
    simp
  cases event with
  | keyDown settings => exact absurd rfl (hdown settings)
  | keyUp => exact absurd rfl hup
  | connection | taskCards | threadStatus | notified | refreshTimer | startRender | endRender |
    longPress => exact ⟨hmap, rfl, rfl⟩

theorem Pressing.longPress {past : List (CardStep Num)} (h : Pressing past action)
    (timer : Nat) : Pressing (⟨action, .longPress timer, (action.longPress js timer).1⟩ :: past)
      (action.longPress js timer).2 := by
  rcases longPress_cases js h timer with hnone | ⟨target, hsome, htarget, hlong, hafter⟩
  · rw [hnone]
    obtain ⟨hheld, hlast, haccepted⟩ := heldPress_cons action past (.longPress timer)
      (fun _ heq => by cases heq) fun heq => by cases heq
    exact h.other hheld hlast haccepted rfl rfl rfl rfl
  · rw [hafter]
    refine ⟨.inl ⟨rfl, rfl⟩, fun {_} hfound => h.target hfound, fun _ => ?_,
      fun {taskId gestures} hfound => ?_, ?_⟩
    · show action.pressedTarget.isSome = true
      rw [htarget]
      rfl
    · obtain ⟨⟨heldId, sent⟩, hpress, heq⟩ := Option.map_eq_some_iff.mp hfound
      obtain ⟨held, hheld, hid, hrunning | ⟨hoff, -⟩⟩ := h.held hpress
      · obtain ⟨-, rfl⟩ := hrunning
        obtain rfl := Option.some.inj (hheld.symm.trans htarget)
        obtain ⟨rfl, rfl⟩ := Prod.mk.inj heq
        refine ⟨held, htarget, hid, .inr ⟨rfl, rfl, _, ?_, hid ▸ hlong⟩⟩
        simp [hlong.ne_nil]
      · rw [hsome] at hoff
        cases hoff
    · show pressAccepted past = ((heldPress past).map _).isSome
      rw [Option.isSome_map, h.accepted]

theorem Pressing.onKeyUp {past : List (CardStep Num)} (h : Pressing past action) :
    Pressing (⟨action, .keyUp, (action.onKeyUp js).1⟩ :: past) (action.onKeyUp js).2 := by
  have hcleared : ∀ {after : TaskCardAction Num}, after.pressedTarget = none →
      after.longPressed = false → after.longPressTimer = none → after.timers = [] →
      Pressing (⟨action, .keyUp, (action.onKeyUp js).1⟩ :: past) after := by
    intro after htarget hmark htimer htimers
    refine ⟨.inl ⟨htimer, htimers⟩, fun {_} hfound => ?_, fun hmarked => ?_,
      (fun {_ _} hfound => by cases hfound), rfl⟩
    · rw [htarget] at hfound
      cases hfound
    · rw [hmark] at hmarked
      cases hmarked
  rcases onKeyUp_cases js h with ⟨hnone, hsame⟩ |
    ⟨target, -, htarget, hmark, htimer, htimers, -⟩
  · have hmark : action.longPressed = false := by
      refine Bool.eq_false_of_not_eq_true fun hmarked => ?_
      have hsome := h.marked hmarked
      rw [hnone] at hsome
      cases hsome
    rw [hsame] at hcleared ⊢
    rcases h.timer with ⟨hoff, hempty⟩ | ⟨_, _, _, _, htarget⟩
    · exact hcleared hnone hmark hoff hempty
    · rw [hnone] at htarget
      cases htarget
  · exact hcleared htarget hmark htimer htimers

/-- The step lemma for the press under way. -/
theorem Pressing.step {past : List (CardStep Num)} (h : Pressing past action)
    (event : CardEvent) :
    Pressing (⟨action, event, (action.step js images event).1⟩ :: past)
      (action.step js images event).2 := by
  by_cases hdown : ∃ settings, event = .keyDown settings
  · obtain ⟨settings, rfl⟩ := hdown
    exact h.onKeyDown settings
  · by_cases hup : event = .keyUp
    · subst hup
      exact h.onKeyUp
    · by_cases htimer : ∃ timer, event = .longPress timer
      · obtain ⟨timer, rfl⟩ := htimer
        exact h.longPress timer
      · obtain ⟨hsent, htarget, hmark, htimer, htimers⟩ := action.step_eqs js images
          (fun settings heq => hdown ⟨settings, heq⟩) hup fun timer heq => htimer ⟨timer, heq⟩
        rw [hsent]
        obtain ⟨hheld, hlast, haccepted⟩ := heldPress_cons action past event
          (fun settings heq => hdown ⟨settings, heq⟩) hup
        exact h.other hheld hlast haccepted htarget hmark htimer htimers

theorem pressing_appeared (settings : Value) (ctx : Context Num) :
    Pressing [] (appeared settings ctx) where
  timer := .inl ⟨rfl, rfl⟩
  target := fun {_} hfound => by cases hfound
  marked := fun hmarked => by cases hmarked
  held := fun {_ _} hfound => by cases hfound
  accepted := rfl

/-! ## The law and its condition -/

/-- A release obeys the law exactly if it meets nothing left behind. -/
theorem lawful_onKeyUp_iff {past : List (CardStep Num)} (h : Pressing past action) :
    Lawful js images past ⟨action, .keyUp, (action.onKeyUp js).1⟩ ↔
      MeetsNothingLeft past ⟨action, .keyUp, (action.onKeyUp js).1⟩ := by
  simp only [Lawful, MeetsNothingLeft, h.accepted]
  cases hheld : heldPress past with
  | none =>
      simp only [Option.isSome_none, Bool.false_eq_true, if_false]
      rcases onKeyUp_cases js h with ⟨hnone, hsame⟩ |
        ⟨target, htarget, -, -, -, -, ⟨hmark, hsent⟩ | ⟨hmark, hshort⟩⟩
      · simp [hsame, hnone]
      · simp [hsent, hmark]
      · simp [hshort.ne_nil, htarget, hmark]
  | some press =>
      obtain ⟨taskId, gestures⟩ := press
      obtain ⟨target, htarget, rfl, hstate⟩ := h.held hheld
      simp only [Option.isSome_some, if_true]
      rcases onKeyUp_cases js h with ⟨hnone, -⟩ | ⟨other, hother, -, -, -, -, hsent⟩
      · rw [hnone] at htarget
        cases htarget
      · obtain rfl := Option.some.inj (hother.symm.trans htarget)
        rcases hstate with ⟨htimer, rfl⟩ | ⟨htimer, hmark, gesture, rfl, hlong⟩
        · rcases hsent with ⟨hmark, hsent⟩ | ⟨hmark, hshort⟩
          · have hnot : ¬ShortGesture other.taskId (action.onKeyUp js).1 :=
              fun hshort => hshort.ne_nil hsent
            simp [hnot, hmark, htimer]
          · simp [hshort, hmark]
        · rcases hsent with ⟨-, hsent⟩ | ⟨hunmarked, -⟩
          · simp [hsent, htimer, hlong]
          · rw [hmark] at hunmarked
            cases hunmarked

/-- Every other step obeys the law. -/
theorem lawful_step_iff {past : List (CardStep Num)} (hrendered : Rendered js images past action)
    (h : Pressing past action) (event : CardEvent) :
    Lawful js images past ⟨action, event, (action.step js images event).1⟩ ↔
      MeetsNothingLeft past ⟨action, event, (action.step js images event).1⟩ := by
  cases event with
  | keyUp => exact lawful_onKeyUp_iff h
  | keyDown settings =>
      refine iff_of_true ⟨rfl, fun taskId haccepts => ?_⟩ trivial
      unfold accepts at haccepts
      split at haccepts
      · exact hrendered.target (Option.filter_eq_some_iff.mp haccepts).1
      · cases haccepts
  | longPress timer =>
      refine iff_of_true ?_ trivial
      rcases longPress_cases js h timer with hnone | ⟨target, -, htarget, hlong, -⟩
      · exact .inl (congrArg Prod.fst hnone)
      · exact .inr ⟨target.taskId, h.target htarget, hlong⟩
  | connection | taskCards | threadStatus | notified | refreshTimer | startRender | endRender =>
      exact iff_of_true rfl trivial

end TaskCardAction

/-- The law of gestures holds of a run exactly if no release meets what a press without a
release has left behind. -/
theorem gestureLaw_iff (js : Js Num) (images : Images Num) (settings : Value)
    (ctx : Context Num) (events : List CardEvent) :
    GestureLaw js images (cardRun js images settings ctx events) ↔
      EachStep MeetsNothingLeft [] (cardRun js images settings ctx events) :=
  eachStep_iff
    (fun past action => TaskCardAction.Rendered js images past action ∧
      TaskCardAction.Pressing past action)
    (fun event hinv => ⟨hinv.1.step event, hinv.2.step event⟩)
    (fun event hinv => TaskCardAction.lawful_step_iff hinv.1 hinv.2 event)
    ⟨TaskCardAction.rendered_appeared js images settings ctx,
      TaskCardAction.pressing_appeared settings ctx⟩ events

/-! ## A release that is lost -/

/-- A runtime for whole numbers and lower-case texts. -/
def sampleJs : Js (Option Nat) where
  number value := value.bind Value.asU64
  ofNat := some
  equal first second := first.isSome && first == second
  less first second := first.any fun low => second.any fun high => decide (low < high)
  atMost first second := first.any fun low => second.any fun high => decide (low ≤ high)
  isFinite := Option.isSome
  isInteger := Option.isSome
  string value := value.asStr.getD ""
  toLowerCase text := text

/-- Images that show the status only. -/
def sampleImages : Images (Option Nat) where
  renderTaskCardImage _ _ status _ _ _ _ _ := some status
  renderDisconnectedImage _ := some "disconnected"

/-- The settings of a key for the first slot. -/
def firstSlot : Value := .object [("slot", .ofNat 0)]

/-- A card in the first slot. -/
def firstCard : Context (Option Nat) where
  connected := true
  taskCards := [.object [("id", .ofNat 0), ("task_id", .string "task-1"), ("e", .ofNat 1),
    ("status", .string "running")]]
  threadStatus := []
  selectedTaskSlot := none

/-- A long press whose release is lost, and then a short press. -/
def lostRelease : List CardEvent :=
  [.startRender 0, .endRender true, .keyDown firstSlot, .longPress 0, .keyDown firstSlot, .keyUp]

/-- The mark of the long press swallows the short one. -/
theorem not_gestureLaw_lostRelease : ¬GestureLaw sampleJs sampleImages
    (cardRun sampleJs sampleImages firstSlot firstCard lostRelease) := by
  intro h
  rcases h.2.2.2.2.2.1 with ⟨-, hshort⟩ | ⟨-, gesture, hgesture, -⟩
  · exact hshort.ne_nil (by rfl)
  · cases hgesture

end Plugin
end MicroEmu
