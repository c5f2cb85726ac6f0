import MicroEmu.Bridge.CardPresses
import MicroEmu.Daemon.PluginController

/-!
# Which control a plugin event is about

The message of a plugin names its control by kind and index.  `parseEvent` cuts the index
to a byte, so a message with a larger index becomes the event of another control, and the
press of another card.  A message whose index fits a byte, or which is refused for another
field, is taken as it is meant.
-/

namespace MicroEmu
namespace Daemon

open Json (Value)
open Bridge (Outside BridgeRuntime)
open Bridge.BridgeRuntime (ActsFor cardPress pressTarget)
open Codex (PhysicalEvent)
open Tasks (WalkOrder)

/-- The kind of an event message. -/
def eventKind (message : Value) : Option String := (message.get? "kind").bind Value.asStr

/-- The `index` of an event message, of any size. -/
def messageIndex (message : Value) : Option Nat := (message.get? "index").bind Value.asU64

/-- The gesture of a task action. -/
def eventGesture (message : Value) : Option Nat :=
  ((message.get? "gesture").bind Value.asStr).bind gestureNumber

/-- The task that the message of a card names. -/
def messageTaskId (message : Value) : Option String :=
  if eventKind message = some "button" then none else (eventTaskId message).getD none

/-- The kinds with an index. -/
def indexKinds : List String :=
  ["button", "task-button", "task-toggle", "task-action", "encoder-turn", "encoder-button"]

/-- The kinds with a task. -/
def taskKinds : List String := ["task-button", "task-toggle", "task-action"]

/-- The kind of message that an event stands for. -/
def kindOf : PhysicalEvent → String
  | .button _ _ => "button"
  | .taskButton _ _ _ => "task-button"
  | .taskToggle _ _ => "task-toggle"
  | .taskAction _ _ _ => "task-action"
  | .microButton _ _ => "micro-key"
  | .catalogAction _ => "catalog-action"
  | .modelCycle => "model-cycle"
  | .usageSelect _ => "usage-agent"
  | .encoderTurn _ _ => "encoder-turn"
  | .encoderButton _ _ => "encoder-button"

/-- The index of the control of an event, where the message names it by an index. -/
def controlIndex : PhysicalEvent → Option Nat
  | .button index _ => some index
  | .taskButton index _ _ => some index
  | .taskToggle index _ => some index
  | .taskAction index _ _ => some index
  | .encoderTurn index _ => some index
  | .encoderButton index _ => some index
  | _ => none

/-! ## What is parsed -/

/-- What an event tells about its message. -/
structure ParsedFrom (message : Value) (event : PhysicalEvent) : Prop where
  kind : eventKind message = some (kindOf event)
  index : ∀ {cut : Nat}, controlIndex event = some cut →
    ∃ index, messageIndex message = some index ∧ cut = index % 2 ^ 8
  press : ∀ {press : Nat × Option String}, cardPress event = some press →
    controlIndex event = some press.1 ∧ press.2 = messageTaskId message
  task : kindOf event ∈ taskKinds → eventTaskId message ≠ none
  gesture : kindOf event = "task-action" → eventGesture message ≠ none

theorem eventIndex_eq_some {message : Value} {cut : Nat} (h : eventIndex message = some cut) :
    ∃ index, messageIndex message = some index ∧ cut = index % 2 ^ 8 := by
  obtain ⟨index, hindex, rfl⟩ := Option.map_eq_some_iff.mp h
  exact ⟨index, hindex, rfl⟩

/-- The task of a card of its own kind. -/
theorem messageTaskId_eq {message : Value} {kind : String} {taskId : Option String}
    (hkind : eventKind message = some kind) (hcard : kind ≠ "button")
    (htask : eventTaskId message = some taskId) : taskId = messageTaskId message := by
  rw [messageTaskId, hkind, if_neg (fun heq => hcard (Option.some.inj heq)), htask,
    Option.getD_some]

/-- The events of cards with a task. -/
theorem parsedFrom_card {message : Value} {event : PhysicalEvent} {kind : String} {cut : Nat}
    {taskId : Option String} (hkind : eventKind message = some kind) (hevent : kindOf event = kind)
    (hcard : kind ≠ "button") (hcut : eventIndex message = some cut)
    (htask : eventTaskId message = some taskId) (hindex : controlIndex event = some cut)
    (hpress : cardPress event = some (cut, taskId))
    (hgesture : kind = "task-action" → eventGesture message ≠ none) : ParsedFrom message event where
  kind := hevent ▸ hkind
  index := fun {found} hfound => by
    obtain rfl := Option.some.inj (hindex.symm.trans hfound)
    exact eventIndex_eq_some hcut
  press := fun {press} hfound => by
    obtain rfl := Option.some.inj (hpress.symm.trans hfound)
    exact ⟨hindex, messageTaskId_eq hkind hcard htask⟩
  task := fun _ => by
    rw [htask]
    exact Option.some_ne_none taskId
  gesture := hevent ▸ hgesture

/-- The events of other controls. -/
theorem parsedFrom_other {message : Value} {event : PhysicalEvent} {kind : String}
    (hkind : eventKind message = some kind) (hevent : kindOf event = kind)
    (hcard : kind ∉ taskKinds) (hindex : ∀ {cut : Nat}, controlIndex event = some cut →
      eventIndex message = some cut)
    (hpress : ∀ {press : Nat × Option String}, cardPress event = some press →
      controlIndex event = some press.1 ∧ press.2 = messageTaskId message) :
    ParsedFrom message event where
  kind := hevent ▸ hkind
  index := fun {_} hcut => eventIndex_eq_some (hindex hcut)
  press := hpress
  task := fun hmem => absurd (hevent ▸ hmem) hcard
  gesture := fun heq => by
    refine absurd (hevent.symm.trans heq) fun haction => hcard ?_
    rw [haction]
    decide

theorem parsedFrom_parseEvent {message : Value} {event : PhysicalEvent}
    (h : parseEvent message = some event) : ParsedFrom message event := by
  unfold parseEvent at h
  split at h
  next hkind =>
    obtain ⟨cut, hcut, rfl⟩ := Option.map_eq_some_iff.mp h
    refine parsedFrom_other hkind rfl (by decide) (fun {_} hfound => hfound ▸ hcut) ?_
    intro press hfound
    obtain rfl := Option.some.inj hfound
    exact ⟨rfl, (if_pos hkind).symm⟩
  next hkind =>
    obtain ⟨cut, hcut, hrest⟩ := Option.bind_eq_some_iff.mp h
    obtain ⟨taskId, htask, hevent⟩ := Option.bind_eq_some_iff.mp hrest
    obtain rfl := Option.some.inj hevent
    exact parsedFrom_card hkind rfl (by decide) hcut htask rfl rfl fun heq => absurd heq (by decide)
  next hkind =>
    obtain ⟨cut, hcut, hrest⟩ := Option.bind_eq_some_iff.mp h
    obtain ⟨taskId, htask, hevent⟩ := Option.bind_eq_some_iff.mp hrest
    obtain rfl := Option.some.inj hevent
    exact parsedFrom_card hkind rfl (by decide) hcut htask rfl rfl fun heq => absurd heq (by decide)
  next hkind =>
    obtain ⟨cut, hcut, hrest⟩ := Option.bind_eq_some_iff.mp h
    obtain ⟨gesture, hgesture, hrest⟩ := Option.bind_eq_some_iff.mp hrest
    obtain ⟨taskId, htask, hevent⟩ := Option.bind_eq_some_iff.mp hrest
    obtain rfl := Option.some.inj hevent
    refine parsedFrom_card hkind rfl (by decide) hcut htask rfl rfl fun _ => ?_
    rw [eventGesture, hgesture]
    exact Option.some_ne_none gesture
  next hkind =>
    obtain ⟨index, -, hevent⟩ := Option.bind_eq_some_iff.mp h
    obtain rfl := Option.some.inj hevent
    exact parsedFrom_other hkind rfl (by decide) (fun {_} h => by cases h) fun {_} h => by cases h
  next hkind =>
    obtain ⟨action, -, rfl⟩ := Option.map_eq_some_iff.mp h
    exact parsedFrom_other hkind rfl (by decide) (fun {_} h => by cases h) fun {_} h => by cases h
  next hkind =>
    obtain rfl := Option.some.inj h
    exact parsedFrom_other hkind rfl (by decide) (fun {_} h => by cases h) fun {_} h => by cases h
  next hkind =>
    obtain ⟨agent, -, rfl⟩ := Option.map_eq_some_iff.mp h
    exact parsedFrom_other hkind rfl (by decide) (fun {_} h => by cases h) fun {_} h => by cases h
  next hkind =>
    obtain ⟨cut, hcut, rfl⟩ := Option.map_eq_some_iff.mp h
    exact parsedFrom_other hkind rfl (by decide) (fun {_} hfound => hfound ▸ hcut)
      fun {_} h => by cases h
  next hkind =>
    obtain ⟨cut, hcut, rfl⟩ := Option.map_eq_some_iff.mp h
    exact parsedFrom_other hkind rfl (by decide) (fun {_} hfound => hfound ▸ hcut)
      fun {_} h => by cases h
  next => cases h

/-- A message with an index is parsed, unless another field refuses it. -/
theorem exists_parseEvent {message : Value} {kind : String} {index : Nat}
    (hkind : eventKind message = some kind) (hmem : kind ∈ indexKinds)
    (hindex : messageIndex message = some index)
    (htask : kind ∈ taskKinds → eventTaskId message ≠ none)
    (hgesture : kind = "task-action" → eventGesture message ≠ none) :
    ∃ event, parseEvent message = some event ∧ controlIndex event = some (index % 2 ^ 8) := by
  have hcut : eventIndex message = some (index % 2 ^ 8) := by
    rw [eventIndex]
    exact congrArg (Option.map (· % 2 ^ 8)) hindex
  rw [eventKind] at hkind
  simp only [indexKinds, List.mem_cons, List.not_mem_nil, or_false] at hmem
  rcases hmem with rfl | rfl | rfl | rfl | rfl | rfl
  · refine ⟨.button (index % 2 ^ 8) (eventPressed message), ?_, rfl⟩
    simp only [parseEvent, hkind, hcut, Option.map_some]
  · obtain ⟨taskId, htaskId⟩ := Option.ne_none_iff_exists'.mp (htask (by decide))
    refine ⟨.taskButton (index % 2 ^ 8) (eventPressed message) taskId, ?_, rfl⟩
    simp only [parseEvent, hkind, hcut, htaskId]
    rfl
  · obtain ⟨taskId, htaskId⟩ := Option.ne_none_iff_exists'.mp (htask (by decide))
    refine ⟨.taskToggle (index % 2 ^ 8) taskId, ?_, rfl⟩
    simp only [parseEvent, hkind, hcut, htaskId]
    rfl
  · obtain ⟨taskId, htaskId⟩ := Option.ne_none_iff_exists'.mp (htask (by decide))
    obtain ⟨gesture, hfound⟩ := Option.ne_none_iff_exists'.mp (hgesture rfl)
    rw [eventGesture] at hfound
    refine ⟨.taskAction (index % 2 ^ 8) gesture taskId, ?_, rfl⟩
    simp only [parseEvent, hkind, hcut, htaskId, hfound]
    rfl
  · refine ⟨.encoderTurn (index % 2 ^ 8)
      (max (-127) (min (((message.get? "delta").bind asI64).getD 1) 127)), ?_, rfl⟩
    simp only [parseEvent, hkind, hcut, Option.map_some]
  · refine ⟨.encoderButton (index % 2 ^ 8) (eventPressed message), ?_, rfl⟩
    simp only [parseEvent, hkind, hcut, Option.map_some]

/-! ## What is meant -/

/-- The event is one of exactly the control that the message names, and the press of a card
acts only for the task of this card: the one that the message names, or without one the task
in the slot of its index. -/
structure MeantBy (message : Value) (event : PhysicalEvent) : Prop where
  kind : eventKind message = some (kindOf event)
  index : ∀ {index : Nat}, controlIndex event = some index → messageIndex message = some index
  press : (cardPress event).isSome → ∃ index, messageIndex message = some index ∧
    ∀ {World : Type} (out : Outside World) (order : WalkOrder) (bridge : BridgeRuntime World),
      bridge.taskBoard.WellFormed → ∀ nowMs,
        ActsFor out (bridge.pressTarget order bridge.taskDeviceId bridge.taskSlotCount
          (index, messageTaskId message)) bridge (bridge.pollEvent out order nowMs event).2 ∧
        ∀ deviceId slotCount,
          ActsFor out (bridge.pressTarget order deviceId slotCount
            (index, messageTaskId message)) bridge
            (bridge.routeTaskDeviceEvent out order deviceId slotCount nowMs event)

/-- The message is refused, or taken as it is meant. -/
def Unaliased (message : Value) : Prop :=
  ∀ event, parseEvent message = some event → MeantBy message event

/-- An index from 256 on stands only in a message that is refused for its task or its
gesture. -/
def IndexFits (message : Value) : Prop :=
  ∀ kind ∈ indexKinds, eventKind message = some kind →
    ∀ index, messageIndex message = some index → 2 ^ 8 ≤ index →
      (kind ∈ taskKinds ∧ eventTaskId message = none) ∨
        (kind = "task-action" ∧ eventGesture message = none)

theorem mem_indexKinds {event : PhysicalEvent} {cut : Nat} (h : controlIndex event = some cut) :
    kindOf event ∈ indexKinds := by
  cases event with
  | button | taskButton | taskToggle | taskAction | encoderTurn | encoderButton =>
      simp [kindOf, indexKinds]
  | microButton | catalogAction | modelCycle | usageSelect => cases h

/-- Where the index fits, it is not cut. -/
theorem messageIndex_of_fits {message : Value} {event : PhysicalEvent} {cut : Nat}
    (hfits : IndexFits message) (hparsed : ParsedFrom message event)
    (hcut : controlIndex event = some cut) : messageIndex message = some cut := by
  obtain ⟨index, hindex, rfl⟩ := hparsed.index hcut
  by_cases hlarge : 2 ^ 8 ≤ index
  · rcases hfits _ (mem_indexKinds hcut) hparsed.kind index hindex hlarge with
      ⟨htask, hnone⟩ | ⟨haction, hnone⟩
    · exact absurd hnone (hparsed.task htask)
    · exact absurd hnone (hparsed.gesture haction)
  · rw [hindex, Nat.mod_eq_of_lt (Nat.not_le.mp hlarge)]

/-- A message is refused or taken as it is meant exactly if its index fits. -/
theorem unaliased_iff (message : Value) : Unaliased message ↔ IndexFits message := by
  constructor
  · intro h kind hmem hkind index hindex hlarge
    by_contra hother
    have htask : kind ∈ taskKinds → eventTaskId message ≠ none :=
      fun htask hnone => hother (.inl ⟨htask, hnone⟩)
    have hgesture : kind = "task-action" → eventGesture message ≠ none :=
      fun haction hnone => hother (.inr ⟨haction, hnone⟩)
    obtain ⟨event, hparse, hcut⟩ := exists_parseEvent hkind hmem hindex htask hgesture
    have hsame := (h event hparse).index hcut
    rw [hindex] at hsame
    have hlt := Nat.mod_lt index (show 2 ^ 8 > 0 by decide)
    rw [← Option.some.inj hsame] at hlt
    exact absurd hlarge (Nat.not_le.mpr hlt)
  · intro hfits event hparse
    have hparsed := parsedFrom_parseEvent hparse
    refine ⟨hparsed.kind, fun hcut => messageIndex_of_fits hfits hparsed hcut, fun hsome => ?_⟩
    obtain ⟨⟨index, taskId⟩, hpress⟩ := Option.isSome_iff_exists.mp hsome
    obtain ⟨hcut, htask⟩ := hparsed.press hpress
    simp only at hcut htask
    subst htask
    exact ⟨index, messageIndex_of_fits hfits hparsed hcut, fun out order bridge hkeyed nowMs =>
      ⟨BridgeRuntime.actsFor_pollEvent hkeyed hpress nowMs,
        fun _ _ => BridgeRuntime.actsFor_routeTaskDeviceEvent hkeyed hpress nowMs⟩⟩

/-- The press of a card that does not exist is taken for the press of the first card. -/
theorem not_unaliased_wrapped : ¬Unaliased (.object [("type", .string "event"),
    ("kind", .string "task-button"), ("index", .ofNat 256), ("pressed", .bool true)]) := by
  intro h
  have hindex := (h (.taskButton 0 true none) (by rfl)).index rfl
  exact absurd hindex (by decide)

end Daemon
end MicroEmu
