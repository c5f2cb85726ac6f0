import MicroEmu.Json

/-!
# The context of the plugin

The Stream Deck plugin keeps what the daemon has rendered last: the task cards, the thread
status, and which task is selected.  Its cards are JSON values read the JavaScript way.
-/

namespace MicroEmu
namespace Plugin

open Json (Value)

/-- What the plugin uses of the JavaScript runtime, for a type of numbers. -/
structure Js (Num : Type) where
  /-- `Number` of a value; of `undefined`, where there is none. -/
  number : Option Value → Num
  ofNat : Nat → Num
  /-- `===`, `<` and `<=` on numbers. -/
  equal : Num → Num → Bool
  less : Num → Num → Bool
  atMost : Num → Num → Bool
  isFinite : Num → Bool
  isInteger : Num → Bool
  /-- `String`. -/
  string : Value → String
  toLowerCase : String → String

/-- The field of a record that may be missing. -/
def field (card : Option Value) (key : String) : Option Value := card.bind (·.get? key)

/-- `??`. -/
def coalesce : Option Value → Option Value → Option Value
  | none, other => other
  | some .null, other => other
  | some value, _ => some value

/-- Not null, and of type "object". -/
def isRecord : Value → Bool
  | .array _ => true
  | .object _ => true
  | _ => false

variable {Num : Type} (js : Js Num)

/-- The slot of a card. -/
def cardNumber (card : Option Value) : Num :=
  js.number (coalesce (field card "id") (coalesce (field card "slot") (field card "i")))

/-- `PluginContext`, as far as the task cards need it. -/
structure Context (Num : Type) where
  connected : Bool
  taskCards : List Value
  threadStatus : List Value
  selectedTaskSlot : Option Num

namespace Context

variable (ctx : Context Num)

/-- `getTaskCard`. -/
def getTaskCard (index : Num) : Option Value :=
  ctx.taskCards.find? fun card => js.equal (cardNumber js (some card)) index

/-- `getTaskCardById`. -/
def getTaskCardById (taskId : String) : Option Value :=
  ctx.taskCards.find? fun card => decide ((card.get? "task_id").bind Value.asStr = some taskId)

/-- `getSlot`, which throws at an entry that is null. -/
def getSlot (index : Num) : Except Unit (Option Value) :=
  find ctx.threadStatus
where
  /-- `find`. -/
  find : List Value → Except Unit (Option Value)
    | [] => .ok none
    | .null :: _ => .error ()
    | slot :: slots =>
        if js.equal (js.number (slot.get? "id")) index then .ok (some slot) else find slots

/-- The task card of a slot, or what the thread status says about it. -/
def cardAt (index : Num) : Except Unit (Option Value) :=
  match ctx.getTaskCard js index with
  | some card => .ok (some card)
  | none => ctx.getSlot js index

/-- `getSelectedTaskCard`. -/
def getSelectedTaskCard : Option Value :=
  ctx.selectedTaskSlot.bind fun slot => ctx.getTaskCard js slot

/-- The fields of a record with `selected` set; those of an array are never read. -/
def withSelected (card : Value) (selected : Bool) : Value :=
  .object (("selected", .bool selected) ::
    (card.asObject.getD []).filter fun field => field.1 != "selected")

/-- `render:taskCards`: at most one card is selected. -/
def renderTaskCards (cards : List Value) : Context Num :=
  let records := cards.filter isRecord
  let selectedSlot := cardNumber js (records.find? fun card =>
    decide ((card.get? "selected").bind Value.asBool = some true))
  let selected := if js.isFinite selectedSlot then some selectedSlot else none
  { ctx with
    selectedTaskSlot := selected
    taskCards := records.map fun card => withSelected card
      (selected.any fun slot => js.equal (cardNumber js (some card)) slot) }

/-- `render:threadStatus`. -/
def renderThreadStatus (status : List Value) : Context Num := { ctx with threadStatus := status }

/-- The connection is there, or gone, which also ends the selection. -/
def setConnected (connected : Bool) : Context Num :=
  if connected then { ctx with connected := true }
  else { ctx with connected := false, selectedTaskSlot := none }

/-- `selectTaskSlot`. -/
def selectTaskSlot (slot : Num) : Context Num := { ctx with selectedTaskSlot := some slot }

end Context

end Plugin
end MicroEmu
